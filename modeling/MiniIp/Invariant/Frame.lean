import MiniIp.Library.Within
import MiniIp.Source.System

/-!
# What sending leaves alone

The functions below `udp_send_zero_copy` work on the pool, the transmit ring
and the ARP table. `SendFrame arpKept s t` lists what they keep, and that all
they add to the trace are events of sending. Below `arp_send` the ARP table is
kept as well: there `arpKept` may be any proposition, above it is `False`.
`ip_send` and what is below it send no further datagram: `DeliverFrame` says this too.
-/

set_option autoImplicit false

namespace MiniIp.Invariant

open MiniIp.Source MiniIp.Library.Wp

/-- The events of a call that sends. -/
def Sending : Event → Prop
  | .window .. | .freed .. | .macSend .. | .gmacSend .. | .arpSend .. | .arpEvicted .. |
    .udpSend .. => True
  | .arpMapped .. | .udpQueued .. | .udpTaken .. | .dhcpSent .. | .dhcpState .. | .dhcpOffer |
    .dhcpAck => False

/-- The events below `ip_send`. -/
def Delivering : Event → Prop
  | .window .. | .freed .. | .macSend .. | .gmacSend .. | .arpSend .. | .arpEvicted .. => True
  | .udpSend .. | .arpMapped .. | .udpQueued .. | .udpTaken .. | .dhcpSent .. | .dhcpState .. |
    .dhcpOffer | .dhcpAck => False

theorem Delivering.sending {event : Event} (h : Delivering event) : Sending event := by
  cases event <;> trivial

/-- The fields that sending does not assign. -/
def unsent (s : Stack) :=
  (s.udp, s.ourMac, s.ourIp, s.ourNetmask, s.dhcp, s.options, s.application, s.time, s.entropy,
    s.drawn, s.gmac.rxPackets, s.gmac.rxDescriptors, s.gmac.rxIndex, s.gmac.tsr)

/-- What sending leaves of the state. `arpKept` says whether the ARP table stays as it is. -/
structure SendFrame (arpKept : Prop) (s t : Stack) : Prop where
  unsent : unsent t = unsent s
  arp : arpKept → t.arp = s.arp
  trace : ∃ new, t.trace = new ++ s.trace ∧ ∀ event ∈ new, Sending event

/-- The same, where nothing is given to UDP. -/
structure DeliverFrame (arpKept : Prop) (s t : Stack) : Prop where
  unsent : unsent t = unsent s
  arp : arpKept → t.arp = s.arp
  trace : ∃ new, t.trace = new ++ s.trace ∧ ∀ event ∈ new, Delivering event

variable {arpKept : Prop}

namespace DeliverFrame

variable {s t u : Stack}

theorem refl (s : Stack) : DeliverFrame arpKept s s := ⟨rfl, fun _ => rfl, [], rfl, by simp⟩

theorem trans (h : DeliverFrame arpKept s t) (h' : DeliverFrame arpKept t u) : DeliverFrame arpKept s u := by
  obtain ⟨new, htrace, hnew⟩ := h.trace
  obtain ⟨new', htrace', hnew'⟩ := h'.trace
  refine ⟨h'.unsent.trans h.unsent, fun k => (h'.arp k).trans (h.arp k), new' ++ new, by simp [htrace, htrace'], ?_⟩
  intro event he
  rcases List.mem_append.mp he with he | he
  · exact hnew' event he
  · exact hnew event he

theorem observe {event : Event} (h : Delivering event) : DeliverFrame arpKept s (s.observe event) :=
  ⟨rfl, fun _ => rfl, [event], rfl, by simpa using h⟩

/-- An assignment to fields that sending may assign. -/
theorem assign (h : Invariant.unsent t = Invariant.unsent s) (harp : arpKept → t.arp = s.arp)
    (htrace : t.trace = s.trace) : DeliverFrame arpKept s t :=
  ⟨h, harp, [], htrace, by simp⟩

theorem sends (h : DeliverFrame arpKept s t) : SendFrame arpKept s t := by
  obtain ⟨new, htrace, hnew⟩ := h.trace
  exact ⟨h.unsent, h.arp, new, htrace, fun event he => (hnew event he).sending⟩

end DeliverFrame

namespace SendFrame

variable {s t u : Stack}

theorem refl (s : Stack) : SendFrame arpKept s s := ⟨rfl, fun _ => rfl, [], rfl, by simp⟩

theorem trans (h : SendFrame arpKept s t) (h' : SendFrame arpKept t u) : SendFrame arpKept s u := by
  obtain ⟨new, htrace, hnew⟩ := h.trace
  obtain ⟨new', htrace', hnew'⟩ := h'.trace
  refine ⟨h'.unsent.trans h.unsent, fun k => (h'.arp k).trans (h.arp k), new' ++ new, by simp [htrace, htrace'], ?_⟩
  intro event he
  rcases List.mem_append.mp he with he | he
  · exact hnew' event he
  · exact hnew event he

theorem udp (h : SendFrame arpKept s t) : t.udp = s.udp := congrArg (·.1) h.unsent

theorem ourMac (h : SendFrame arpKept s t) : t.ourMac = s.ourMac := congrArg (·.2.1) h.unsent

theorem ourIp (h : SendFrame arpKept s t) : t.ourIp = s.ourIp := congrArg (·.2.2.1) h.unsent

theorem ourNetmask (h : SendFrame arpKept s t) : t.ourNetmask = s.ourNetmask :=
  congrArg (·.2.2.2.1) h.unsent

theorem dhcp (h : SendFrame arpKept s t) : t.dhcp = s.dhcp := congrArg (·.2.2.2.2.1) h.unsent

theorem options (h : SendFrame arpKept s t) : t.options = s.options := congrArg (·.2.2.2.2.2.1) h.unsent

theorem application (h : SendFrame arpKept s t) : t.application = s.application :=
  congrArg (·.2.2.2.2.2.2.1) h.unsent

theorem time (h : SendFrame arpKept s t) : t.time = s.time := congrArg (·.2.2.2.2.2.2.2.1) h.unsent

theorem entropy (h : SendFrame arpKept s t) : t.entropy = s.entropy :=
  congrArg (·.2.2.2.2.2.2.2.2.1) h.unsent

theorem rxPackets (h : SendFrame arpKept s t) : t.gmac.rxPackets = s.gmac.rxPackets :=
  congrArg (·.2.2.2.2.2.2.2.2.2.2.1) h.unsent

theorem rxDescriptors (h : SendFrame arpKept s t) : t.gmac.rxDescriptors = s.gmac.rxDescriptors :=
  congrArg (·.2.2.2.2.2.2.2.2.2.2.2.1) h.unsent

theorem rxIndex (h : SendFrame arpKept s t) : t.gmac.rxIndex = s.gmac.rxIndex :=
  congrArg (·.2.2.2.2.2.2.2.2.2.2.2.2.1) h.unsent

theorem tsr (h : SendFrame arpKept s t) : t.gmac.tsr = s.gmac.tsr :=
  congrArg (·.2.2.2.2.2.2.2.2.2.2.2.2.2) h.unsent

theorem observe {event : Event} (h : Sending event) : SendFrame arpKept s (s.observe event) :=
  ⟨rfl, fun _ => rfl, [event], rfl, by simpa using h⟩

/-- An assignment to fields that sending may assign. -/
theorem assign (h : Invariant.unsent t = Invariant.unsent s) (harp : arpKept → t.arp = s.arp)
    (htrace : t.trace = s.trace) : SendFrame arpKept s t :=
  ⟨h, harp, [], htrace, by simp⟩

end SendFrame

instance : Std.Refl (SendFrame arpKept) := ⟨SendFrame.refl⟩

instance : IsTrans Stack (SendFrame arpKept) := ⟨fun _ _ _ => SendFrame.trans⟩

instance : Std.Refl (DeliverFrame arpKept) := ⟨DeliverFrame.refl⟩

instance : IsTrans Stack (DeliverFrame arpKept) := ⟨fun _ _ _ => DeliverFrame.trans⟩

/-- The endless loop on a transmit error is entered only where the hardware reports one. -/
def ErrorReported (halt : Halt) (s : Stack) : Prop :=
  halt = .transmitError → transmitErrors s.gmac.tsr = true

theorem errorReported_of_ne {halt : Halt} (h : halt ≠ .transmitError) (s : Stack) :
    ErrorReported halt s := fun heq => absurd heq h

/-- A computation that only sends, however it ends. -/
abbrev Sends {α : Type} (arpKept : Prop) (x : Net α) : Prop :=
  Within (SendFrame arpKept) ErrorReported x

/-- A computation that only delivers what it is given, however it ends. -/
abbrev Delivers {α : Type} (arpKept : Prop) (x : Net α) : Prop :=
  Within (DeliverFrame arpKept) ErrorReported x

theorem Delivers.sends {α : Type} {x : Net α} (h : Delivers arpKept x) : Sends arpKept x :=
  h.mono (fun _ _ => DeliverFrame.sends) fun _ _ hstop => hstop

theorem emit_delivers {event : Event} (h : Delivering event) : Delivers arpKept (emit event) := fun _ =>
  DeliverFrame.observe h

theorem recordWindow_delivers (site : Site) (packet : PacketId) (size : Int) :
    Delivers arpKept (recordWindow site packet size) := fun _ => DeliverFrame.observe trivial

theorem getPacket_delivers (packet : PacketId) : Delivers arpKept (getPacket packet) := fun s => DeliverFrame.refl s

theorem modifyPacket_delivers (packet : PacketId) (f : NetworkPacket → NetworkPacket) :
    Delivers arpKept (modifyPacket packet f) := fun _ => DeliverFrame.assign rfl (fun _ => rfl) rfl

theorem modifyEntry_delivers (entry : ArpEntryId) (f : ArpEntry → ArpEntry) :
    Delivers False (modifyEntry entry f) := fun _ => DeliverFrame.assign rfl False.elim rfl

theorem getTime_delivers : Delivers arpKept getTime := fun s => DeliverFrame.refl s

theorem allocateNetworkPacket_delivers : Delivers arpKept allocateNetworkPacket := by
  refine .bind .get fun s => ?_
  split
  · exact .throw (errorReported_of_ne (by decide))
  · exact .bind (.modify fun _ => .assign rfl (fun _ => rfl) rfl) fun _ => .bind (modifyPacket_delivers _ _) fun _ =>
      .pure _

theorem freeNetworkPacket_delivers (packet : PacketId) : Delivers arpKept (freeNetworkPacket packet) :=
  .bind (.modify fun _ => .assign rfl (fun _ => rfl) rfl) fun _ => emit_delivers trivial

theorem gmacSend_delivers (packet : PacketId) : Delivers arpKept (gmacSend packet) := by
  refine .bind (recordWindow_delivers _ _ _) fun _ => .bind (getPacket_delivers _) fun _ =>
    .bind (emit_delivers trivial) fun _ => ?_
  intro s
  simp only [wp_bind, wp_get, wp_ite, wp_throw]
  split
  · next herrors => exact ⟨DeliverFrame.refl s, fun _ => herrors⟩
  · split
    · exact freeNetworkPacket_delivers packet s
    · split
      · exact ⟨DeliverFrame.refl s, errorReported_of_ne (by decide) s⟩
      · next old _ =>
        refine (Within.bind (freeNetworkPacket_delivers old) fun _ => ?_ : Delivers arpKept _) s
        exact .bind (.modify fun _ => .assign rfl (fun _ => rfl) rfl) fun _ => .bind (getPacket_delivers _)
          fun _ => .bind (.modify fun _ => .assign rfl (fun _ => rfl) rfl) fun _ =>
          .modify fun _ => .assign rfl (fun _ => rfl) rfl

theorem macSend_delivers (packet : PacketId) (mac : Mac) (etherType : UInt16) :
    Delivers arpKept (macSend packet mac etherType) :=
  .bind (modifyPacket_delivers _ _) fun _ => .bind (recordWindow_delivers _ _ _) fun _ => .bind .get
    fun _ => .bind (modifyPacket_delivers _ _) fun _ => .bind (emit_delivers trivial) fun _ =>
    gmacSend_delivers _

theorem sendArpPacket_delivers (targetMac : Mac) (targetIp : Ip) (arpType : ArpType) :
    Delivers arpKept (sendArpPacket targetMac targetIp arpType) :=
  .bind allocateNetworkPacket_delivers fun _ => .bind (recordWindow_delivers _ _ _) fun _ => .bind .get
    fun _ => .bind (modifyPacket_delivers _ _) fun _ => .ite (macSend_delivers _ _ _) (macSend_delivers _ _ _)

theorem setEntryLists_delivers (f : Stack → List ArpEntryId × List ArpEntryId) :
    Delivers False (modify fun s => s.setEntryLists (f s).1 (f s).2) := fun _ =>
  DeliverFrame.assign rfl False.elim rfl

theorem freeEntryPackets_delivers (entry : ArpEntryId) (packets : List PacketId) :
    Delivers False (freeEntryPackets entry packets) := by
  induction packets with
  | nil => exact .pure _
  | cons packet rest ih =>
    exact .bind (modifyEntry_delivers _ _) fun _ => .bind (freeNetworkPacket_delivers _) fun _ =>
      .bind (modifyEntry_delivers _ _) fun _ => ih

theorem freeEntry_delivers (entry : ArpEntryId) : Delivers False (freeEntry entry) :=
  .bind .get fun _ => .bind (freeEntryPackets_delivers _ _) fun _ =>
    setEntryLists_delivers fun s => (entry :: s.arp.freeEntries, s.arp.usedEntries.erase entry)

theorem takeEntry_delivers (entry : ArpEntryId) : Delivers False (takeEntry entry) :=
  .bind (modifyEntry_delivers _ _) fun _ => .bind
    (setEntryLists_delivers fun s => (s.arp.freeEntries, s.arp.usedEntries ++ [entry])) fun _ => .pure _

theorem allocateEntry_delivers : Delivers False allocateEntry := by
  refine .bind .get fun s => ?_
  split
  · next rest _ =>
    exact .bind (setEntryLists_delivers fun s => (rest, s.arp.usedEntries)) fun _ => takeEntry_delivers _
  · refine .bind .get fun t => ?_
    split
    · exact .throw (errorReported_of_ne (by decide))
    · exact .bind (emit_delivers trivial) fun _ => .bind (freeEntry_delivers _) fun _ => takeEntry_delivers _

theorem findArpEntry_delivers (ip : Ip) : Delivers arpKept (findArpEntry ip) :=
  .bind .get fun _ => .pure _

theorem appendToArpEntryQueue_delivers (packet : PacketId) (entry : ArpEntryId) :
    Delivers False (appendToArpEntryQueue packet entry) :=
  .bind (modifyEntry_delivers _ _) fun _ => recordWindow_delivers _ _ _

theorem addToArpEntryQueue_delivers (packet : PacketId) (entry : ArpEntryId) :
    Delivers False (addToArpEntryQueue packet entry) := by
  refine .bind .get fun s => .ite (.bind .get fun t => ?_) (appendToArpEntryQueue_delivers _ _)
  split
  · exact .throw (errorReported_of_ne (by decide))
  · exact .bind (modifyEntry_delivers _ _) fun _ => .bind (freeNetworkPacket_delivers _) fun _ =>
      .bind (modifyEntry_delivers _ _) fun _ => appendToArpEntryQueue_delivers _ _

/-- The call is observed first, and what follows only delivers. -/
theorem arpSend_parts (packet : PacketId) (ip : Ip) :
    ∃ rest, arpSend packet ip = (emit (.arpSend packet ip) >>= rest) ∧ ∀ u, Delivers False (rest u) := by
  refine ⟨_, rfl, fun _ => .bind (findArpEntry_delivers ip) fun found => ?_⟩
  cases found with
  | some entry =>
    exact .bind .get fun _ => .ite (macSend_delivers _ _ _) (addToArpEntryQueue_delivers _ _)
  | none =>
    exact .bind allocateEntry_delivers fun _ => .bind getTime_delivers fun _ =>
      .bind (modifyEntry_delivers _ _) fun _ => .bind (addToArpEntryQueue_delivers _ _) fun _ =>
      sendArpPacket_delivers _ _ _

/-- Asking for an address may evict an entry. -/
theorem arpSend_delivers (packet : PacketId) (ip : Ip) : Delivers False (arpSend packet ip) := by
  obtain ⟨rest, hparts, hrest⟩ := arpSend_parts packet ip
  rw [hparts]
  exact .bind (emit_delivers trivial) hrest

/-- Any packet but a broadcast may change the ARP table. -/
theorem ipSend_delivers (packet : PacketId) (ip : Ip) (protocol : UInt8) :
    Delivers False (ipSend packet ip protocol) :=
  .bind (modifyPacket_delivers _ _) fun _ => .bind (recordWindow_delivers _ _ _) fun _ => .bind .get
    fun _ => .bind (modifyPacket_delivers _ _) fun _ =>
    .ite (macSend_delivers _ _ _) (arpSend_delivers _ _)

theorem udpSendZeroCopy_sends (packet : PacketId) (sourcePort destPort : Port) (ip : Ip) :
    Sends False (udpSendZeroCopy packet sourcePort destPort ip) :=
  .bind (getPacket_delivers _).sends fun _ => .bind (.modify fun _ => .observe trivial) fun _ =>
    .bind (modifyPacket_delivers _ _).sends fun _ => .bind (recordWindow_delivers _ _ _).sends fun _ => .bind .get
    fun _ => .bind (modifyPacket_delivers _ _).sends fun _ => .bind (modifyPacket_delivers _ _).sends fun _ =>
    (ipSend_delivers _ _ _).sends

/-- The clients of UDP send datagrams from the pool. -/
theorem sendTftpPacket_sends (connection : TftpConnection) (destPort : Port) (bytes : List UInt8) :
    Sends False (sendTftpPacket connection destPort bytes) :=
  .bind allocateNetworkPacket_delivers.sends fun _ => .bind (modifyPacket_delivers _ _).sends fun _ =>
    udpSendZeroCopy_sends _ _ _ _

end MiniIp.Invariant
