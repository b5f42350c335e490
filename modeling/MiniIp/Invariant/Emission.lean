import MiniIp.Invariant.ArpEffects
import MiniIp.Invariant.ClientParts
import MiniIp.Library.Spending

/-!
# How many frames a call sends

`Outgoing P n` relates the states before and after a call that sends at most `n` frames, none of them an answer of
ARP. Each is a frame of IPv4 or a request for an address, sent from an address in `P`; and as long as no entry of the
ARP table is valid, each goes to all hosts. `Transmitted P n` is the same for what keeps the host's address in `P`, as
everything does but to set it. These are calls that return; what a call that stops has sent is left open.
-/

set_option autoImplicit false

namespace MiniIp.Invariant

open MiniIp.Source MiniIp.Library.Wp

/-- No entry of the table is valid, in use or not. -/
def Unmapped (s : Stack) : Prop := ∀ e, (s.arp.entries e).containValidMapping = false

def IpFrame (frame : List UInt8) : Prop :=
  ∃ mac ourMac p, frame = (macFramed mac ourMac etherTypeIpv4 p).payload

def BroadcastFrame (frame : List UInt8) : Prop :=
  ∃ ourMac etherType p, frame = (macFramed broadcastMac ourMac etherType p).payload

/-- A request from a host with one of the addresses. -/
def RequestFrame (P : Ip → Prop) (frame : List UInt8) : Prop :=
  ∃ ourMac ip targetMac targetIp, P ip ∧ frame = macBytes broadcastMac ++ macBytes ourMac ++ be16Bytes etherTypeArp ++
    arpBytes arpOperationRequest ourMac ip targetMac targetIp

structure Outgoing (P : Ip → Prop) (n : ℕ) (s t : Stack) : Prop where
  unmapped : Unmapped s → Unmapped t
  frames : ∃ frames, sentFrames t.trace = frames ++ sentFrames s.trace ∧ frames.length ≤ n ∧
    ∀ frame ∈ frames, (P s.ourIp → IpFrame frame ∨ RequestFrame P frame) ∧ (Unmapped s → BroadcastFrame frame)

structure Transmitted (P : Ip → Prop) (n : ℕ) (s t : Stack) : Prop extends Outgoing P n s t where
  address : P s.ourIp → P t.ourIp

variable {P : Ip → Prop} {m n : ℕ} {s t u : Stack}

/-- A step that sends nothing and makes no entry valid. -/
theorem Transmitted.silent (hip : t.ourIp = s.ourIp)
    (harp : ∀ e, (s.arp.entries e).containValidMapping = false → (t.arp.entries e).containValidMapping = false)
    (hframes : sentFrames t.trace = sentFrames s.trace) : Transmitted P n s t where
  address hP := by
    rw [hip]
    exact hP
  unmapped h e := harp e (h e)
  frames := ⟨[], hframes, Nat.zero_le n, by simp⟩

/-- A step that sends one frame and leaves the table alone. -/
theorem Transmitted.one {frame : List UInt8} (hframes : sentFrames t.trace = frame :: sentFrames s.trace)
    (harp : t.arp = s.arp) (hunsent : unsent t = unsent s) (hkind : P s.ourIp → IpFrame frame ∨ RequestFrame P frame)
    (hall : Unmapped s → BroadcastFrame frame) : Transmitted P 1 s t where
  address hP := by
    have hip : t.ourIp = s.ourIp := congrArg (·.2.2.1) hunsent
    rw [hip]
    exact hP
  unmapped hno e := by
    rw [harp]
    exact hno e
  frames := by
    refine ⟨[frame], hframes, Nat.le_refl 1, fun frame' hmem => ?_⟩
    obtain rfl := List.mem_singleton.mp hmem
    exact ⟨hkind, hall⟩

/-- The frames of two steps are counted together. -/
theorem transmitted_graded (P : Ip → Prop) : Graded (Transmitted P) where
  refl s := .silent rfl (fun _ h => h) rfl
  trans h h' := by
    obtain ⟨frames, hframes, hlength, hkinds⟩ := h.frames
    obtain ⟨frames', hframes', hlength', hkinds'⟩ := h'.frames
    refine ⟨⟨fun hno => h'.unmapped (h.unmapped hno), frames' ++ frames, ?_, ?_, ?_⟩, fun hP => h'.address (h.address hP)⟩
    · rw [hframes', hframes, List.append_assoc]
    · rw [List.length_append]
      omega
    · intro frame hmem
      rcases List.mem_append.mp hmem with hlate | hearly
      · obtain ⟨hkind, hall⟩ := hkinds' frame hlate
        exact ⟨fun hP => hkind (h.address hP), fun hno => hall (h.unmapped hno)⟩
      · exact hkinds frame hearly
  mono hmn h := by
    obtain ⟨frames, hframes, hlength, hkinds⟩ := h.frames
    exact ⟨⟨h.unmapped, frames, hframes, hlength.trans hmn, hkinds⟩, h.address⟩

abbrev Transmits {α : Type} (P : Ip → Prop) (n : ℕ) (x : Net α) : Prop := Spends (Transmitted P) n x

namespace Transmits

variable {α β : Type} {x : Net α}

theorem pure (a : α) : Transmits P n (pure a) := Spends.pure (transmitted_graded P) a

theorem get : Transmits P n (get : Net Stack) := Spends.get (transmitted_graded P)

theorem mono (h : Transmits P m x) (hmn : m ≤ n) : Transmits P n x := Spends.mono (transmitted_graded P) h hmn

theorem bind {f : α → Net β} (hx : Transmits P m x) (hf : ∀ a, Transmits P n (f a)) : Transmits P (m + n) (x >>= f) :=
  Spends.bind (transmitted_graded P) hx hf

/-- Something silent comes first. -/
theorem before {f : α → Net β} (hx : Transmits P 0 x) (hf : ∀ a, Transmits P n (f a)) : Transmits P n (x >>= f) :=
  Spends.before (transmitted_graded P) hx hf

/-- Something silent comes behind. -/
theorem andThen {f : α → Net β} (hx : Transmits P n x) (hf : ∀ a, Transmits P 0 (f a)) : Transmits P n (x >>= f) :=
  Spends.andThen (transmitted_graded P) hx hf

end Transmits

theorem assign_transmits {f : Stack → Stack} (h : ∀ s, (f s).ourIp = s.ourIp ∧ (f s).arp = s.arp ∧ (f s).trace = s.trace) :
    Transmits P n (modify f : Net Unit) := by
  apply Spends.modify
  intro s
  obtain ⟨hip, harp, htrace⟩ := h s
  apply Transmitted.silent hip
  · intro e he
    rw [harp]
    exact he
  · rw [htrace]

theorem emit_transmits {event : Event} (h : Event.frame event = none) : Transmits P n (emit event) := by
  apply Spends.modify
  intro s
  exact .silent rfl (fun _ he => he) (List.filterMap_cons_none h)

theorem getPacket_transmits (packet : PacketId) : Transmits P n (getPacket packet) := Transmits.before .get fun _ => .pure _

theorem getTime_transmits : Transmits P n getTime := Transmits.before .get fun _ => .pure _

theorem random_transmits : Transmits P n random :=
  Transmits.before .get fun _ => Transmits.before (assign_transmits fun _ => ⟨rfl, rfl, rfl⟩) fun _ => .pure _

theorem modifyPacket_transmits (packet : PacketId) (f : NetworkPacket → NetworkPacket) :
    Transmits P n (modifyPacket packet f) := assign_transmits fun _ => ⟨rfl, rfl, rfl⟩

theorem modifyConnection_transmits (connection : UdpConnectionId) (f : UdpConnection → UdpConnection) :
    Transmits P n (modifyConnection connection f) := assign_transmits fun _ => ⟨rfl, rfl, rfl⟩

theorem modifyDhcp_transmits (f : Dhcp → Dhcp) : Transmits P n (modifyDhcp f) := assign_transmits fun _ => ⟨rfl, rfl, rfl⟩

/-- No entry is made valid. -/
theorem modifyEntry_transmits (entry : ArpEntryId) {f : ArpEntry → ArpEntry}
    (h : ∀ e, e.containValidMapping = false → (f e).containValidMapping = false) : Transmits P n (modifyEntry entry f) := by
  apply Spends.modify
  intro s
  refine .silent rfl (fun e he => ?_) rfl
  by_cases heq : e = entry
  · subst heq
    simpa using h _ he
  · simpa [Function.update_of_ne heq] using he

theorem setEntryLists_transmits (f : Stack → List ArpEntryId × List ArpEntryId) :
    Transmits P n (modify fun s => s.setEntryLists (f s).1 (f s).2) :=
  Spends.modify fun _ => .silent rfl (fun _ he => he) rfl

theorem recordWindow_transmits (site : Site) (packet : PacketId) (headerSize : Int) :
    Transmits P n (recordWindow site packet headerSize) := Transmits.before (getPacket_transmits _) fun _ => emit_transmits rfl

theorem freeNetworkPacket_transmits (packet : PacketId) : Transmits P n (freeNetworkPacket packet) :=
  Transmits.before (assign_transmits fun _ => ⟨rfl, rfl, rfl⟩) fun _ => emit_transmits rfl

theorem allocateNetworkPacket_transmits : Transmits P n allocateNetworkPacket := by
  refine Transmits.before .get fun s => ?_
  split
  · exact Spends.throw _
  · exact Transmits.before (assign_transmits fun _ => ⟨rfl, rfl, rfl⟩) fun _ => Transmits.before (modifyPacket_transmits _ _) fun _ =>
      .pure _

/-- A frame of IPv4 to all hosts. -/
theorem macBroadcast_transmits (packet : PacketId) : Transmits P 1 (macBroadcast packet etherTypeIpv4) := by
  intro s
  apply wp_partial (macSend_sent packet broadcastMac etherTypeIpv4 s)
  intro _ t ht
  exact .one ht.frames ht.arp ht.unsent (fun _ => .inl ⟨_, _, _, rfl⟩) fun _ => ⟨_, _, _, rfl⟩

theorem sendRequest_transmits (ip : Ip) : Transmits P 1 (sendArpPacket zeroMac ip .request) := by
  intro s
  cases hpool : s.freeNetworkPackets with
  | nil =>
    unfold sendArpPacket
    rw [wp_bind]
    unfold wp
    rw [allocateNetworkPacket_nil hpool]
    trivial
  | cons p rest =>
    apply wp_partial (sendArpPacket_sent hpool zeroMac ip .request)
    intro _ t ht
    have hrequest := arpFrame_request s zeroMac ip (s.packets p)
    exact .one ht.frames ht.arp ht.unsent (fun hP => .inr ⟨s.ourMac, s.ourIp, residueOf s, ip, hP, hrequest⟩)
      fun _ => ⟨s.ourMac, etherTypeArp, _, rfl⟩

theorem freeEntryPackets_transmits (entry : ArpEntryId) (packets : List PacketId) :
    Transmits P 0 (freeEntryPackets entry packets) := by
  induction packets with
  | nil => exact .pure _
  | cons packet rest ih =>
    exact Transmits.before (modifyEntry_transmits _ fun _ he => he) fun _ => Transmits.before (freeNetworkPacket_transmits _) fun _ =>
      Transmits.before (modifyEntry_transmits _ fun _ he => he) fun _ => ih

theorem freeEntry_transmits (entry : ArpEntryId) : Transmits P n (freeEntry entry) :=
  Transmits.before .get fun _ => Transmits.before (freeEntryPackets_transmits _ _) fun _ =>
    setEntryLists_transmits fun s => (entry :: s.arp.freeEntries, s.arp.usedEntries.erase entry)

theorem takeEntry_transmits (entry : ArpEntryId) : Transmits P n (takeEntry entry) :=
  Transmits.before (modifyEntry_transmits _ fun _ _ => rfl) fun _ =>
    Transmits.before (setEntryLists_transmits fun s => (s.arp.freeEntries, s.arp.usedEntries ++ [entry])) fun _ => .pure _

theorem allocateEntry_transmits : Transmits P n allocateEntry := by
  refine Transmits.before .get fun s => ?_
  split
  · next rest _ =>
    exact Transmits.before (setEntryLists_transmits fun s => (rest, s.arp.usedEntries)) fun _ => takeEntry_transmits _
  · refine Transmits.before .get fun t => ?_
    split
    · exact Spends.throw _
    · exact Transmits.before (emit_transmits rfl) fun _ => Transmits.before (freeEntry_transmits _) fun _ => takeEntry_transmits _

theorem addToArpEntryQueue_transmits (packet : PacketId) (entry : ArpEntryId) :
    Transmits P n (addToArpEntryQueue packet entry) := by
  have happend : Transmits P n (appendToArpEntryQueue packet entry) :=
    Transmits.before (modifyEntry_transmits _ fun _ he => he) fun _ => recordWindow_transmits _ _ _
  refine Transmits.before .get fun s => .ite (Transmits.before .get fun t => ?_) happend
  split
  · exact Spends.throw _
  · exact Transmits.before (modifyEntry_transmits _ fun _ he => he) fun _ => Transmits.before (freeNetworkPacket_transmits _) fun _ =>
      Transmits.before (modifyEntry_transmits _ fun _ he => he) fun _ => happend

/-- A packet goes to one host only where there is a valid entry. -/
theorem macSend_valid {e : ArpEntryId} (hvalid : (s.arp.entries e).containValidMapping = true) (packet : PacketId) (mac : Mac) :
    wp (macSend packet mac etherTypeIpv4) (fun _ t => Transmitted P 1 s t) (fun _ _ => True) s := by
  apply wp_partial (macSend_sent packet mac etherTypeIpv4 s)
  intro _ t ht
  apply Transmitted.one ht.frames ht.arp ht.unsent
  · exact fun _ => .inl ⟨_, _, _, rfl⟩
  · intro hno
    rw [hno e] at hvalid
    cases hvalid

theorem arpSend_transmits (packet : PacketId) (ip : Ip) : Transmits P 1 (arpSend packet ip) := by
  refine Transmits.before (emit_transmits rfl) fun _ => Transmits.before (Transmits.before .get fun _ => .pure _) fun found => ?_
  cases found with
  | some entry =>
    intro s
    simp only [wp_bind, wp_get, wp_ite]
    split
    · next hvalid => exact macSend_valid hvalid packet _
    · exact addToArpEntryQueue_transmits packet entry s
  | none =>
    exact Transmits.before allocateEntry_transmits fun _ => Transmits.before getTime_transmits fun _ =>
      Transmits.before (modifyEntry_transmits _ fun _ _ => rfl) fun _ => Transmits.before (addToArpEntryQueue_transmits _ _) fun _ =>
      sendRequest_transmits _

theorem arpEntryTask_transmits (entry : ArpEntryId) : Transmits P 1 (arpEntryTask entry) :=
  Transmits.before .get fun _ => Transmits.before getTime_transmits fun _ => Spends.ite (.ite (freeEntry_transmits _) (Transmits.pure _))
    (.ite (.ite (Transmits.andThen (sendRequest_transmits _) fun _ => modifyEntry_transmits _ fun _ he => he) (freeEntry_transmits _))
      (Transmits.pure _))

theorem arpEntriesTask_transmits (entries : List ArpEntryId) : Transmits P entries.length (arpEntriesTask entries) := by
  induction entries with
  | nil => exact .pure _
  | cons entry rest ih =>
    have hboth : Transmits P (1 + rest.length) (arpEntriesTask (entry :: rest)) :=
      Transmits.bind (arpEntryTask_transmits entry) fun _ => ih
    rwa [Nat.add_comm] at hboth

theorem ipSend_transmits (packet : PacketId) (ip : Ip) (protocol : UInt8) : Transmits P 1 (ipSend packet ip protocol) :=
  Transmits.before (modifyPacket_transmits _ _) fun _ => Transmits.before (recordWindow_transmits _ _ _) fun _ => Transmits.before .get fun _ =>
    Transmits.before (modifyPacket_transmits _ _) fun _ => .ite (macBroadcast_transmits _) (arpSend_transmits _ _)

theorem udpSendZeroCopy_transmits (packet : PacketId) (sourcePort destPort : Port) (ip : Ip) :
    Transmits P 1 (udpSendZeroCopy packet sourcePort destPort ip) :=
  Transmits.before (getPacket_transmits _) fun _ => Transmits.before (emit_transmits rfl) fun _ =>
    Transmits.before (modifyPacket_transmits _ _) fun _ => Transmits.before (recordWindow_transmits _ _ _) fun _ =>
    Transmits.before .get fun _ => Transmits.before (modifyPacket_transmits _ _) fun _ =>
    Transmits.before (modifyPacket_transmits _ _) fun _ => ipSend_transmits _ _ _

theorem sendToIp_transmits (bytes : List UInt8) (ip : Ip) : Transmits P 1 (sendToIp bytes ip) :=
  Transmits.before allocateNetworkPacket_transmits fun _ => Transmits.before (modifyPacket_transmits _ _) fun _ => arpSend_transmits _ _

theorem udpSend_transmits (data : Nat → UInt8) (size : Int) (sourcePort destPort : Port) (ip : Ip) :
    Transmits P 1 (udpSend data size sourcePort destPort ip) :=
  Transmits.before allocateNetworkPacket_transmits fun _ => Transmits.before (modifyPacket_transmits _ _) fun _ =>
    udpSendZeroCopy_transmits _ _ _ _

theorem udpListen_transmits (port : Port) (maxPacketCount : Int) : Transmits P n (udpListen port maxPacketCount) := by
  refine Transmits.before .get fun s => ?_
  split
  · exact Spends.throw _
  · exact Transmits.before (assign_transmits fun _ => ⟨rfl, rfl, rfl⟩) fun _ => Transmits.before (modifyConnection_transmits _ _) fun _ =>
      assign_transmits fun _ => ⟨rfl, rfl, rfl⟩

theorem udpReceiveZeroCopy_transmits (port : Port) : Transmits P n (udpReceiveZeroCopy port) := by
  refine Transmits.before .get fun s => ?_
  split
  · exact .pure _
  · refine Transmits.before .get fun t => .ite (Transmits.pure _) ?_
    split
    · exact Spends.throw _
    · exact Transmits.before (modifyConnection_transmits _ _) fun _ => Transmits.before (getPacket_transmits _) fun _ =>
        Transmits.before (emit_transmits rfl) fun _ => .pure _

theorem udpReceive_transmits (size : Int) (port : Port) : Transmits P n (udpReceive size port) := by
  refine Transmits.before (udpReceiveZeroCopy_transmits port) fun taken => ?_
  cases taken with
  | none => exact .pure _
  | some packet =>
    exact Transmits.before (getPacket_transmits _) fun _ => Transmits.before (freeNetworkPacket_transmits _) fun _ => .pure _

theorem udpLimitQueue_transmits (connection : UdpConnectionId) : Transmits P n (udpLimitQueue connection) := by
  refine Transmits.before .get fun s => .ite ?_ (Transmits.pure _)
  split
  · exact Spends.throw _
  · exact Transmits.before (modifyConnection_transmits _ _) fun _ => Transmits.before (freeNetworkPacket_transmits _) fun _ =>
      modifyConnection_transmits _ _

theorem udpQueuePacket_transmits (connection : UdpConnectionId) (packet : PacketId) :
    Transmits P n (udpQueuePacket connection packet) :=
  Transmits.before (modifyConnection_transmits _ _) fun _ => Transmits.before (recordWindow_transmits _ _ _) fun _ =>
    Transmits.before .get fun _ => Transmits.before (emit_transmits rfl) fun _ => udpLimitQueue_transmits _

/-- A datagram is never answered. -/
theorem handleUdp_transmits (packet : PacketId) : Transmits P n (handleUdp packet) := by
  refine Transmits.before (getPacket_transmits _) fun _ => .ite (freeNetworkPacket_transmits _)
    (Transmits.before (recordWindow_transmits _ _ _) fun _ => Transmits.before (modifyPacket_transmits _ _) fun _ =>
      Transmits.before .get fun s => ?_)
  split
  · exact freeNetworkPacket_transmits _
  · exact udpQueuePacket_transmits _ _

theorem handleIcmp_transmits (packet : PacketId) : Transmits P 1 (handleIcmp packet) :=
  Transmits.before (getPacket_transmits _) fun _ => .ite (freeNetworkPacket_transmits _)
    (Transmits.before (recordWindow_transmits _ _ _) fun _ => .ite (Transmits.before (modifyPacket_transmits _ _) fun _ =>
      ipSend_transmits _ _ _) (freeNetworkPacket_transmits _))

theorem handleIp_transmits (packet : PacketId) : Transmits P 1 (handleIp packet) := by
  have hfree : Transmits P 1 (freeNetworkPacket packet) := freeNetworkPacket_transmits packet
  exact Transmits.before (getPacket_transmits _) fun _ => .ite hfree (Transmits.before (recordWindow_transmits _ _ _) fun _ =>
    Transmits.before (modifyPacket_transmits _ _) fun _ => .ite hfree (Transmits.before (modifyPacket_transmits _ _) fun _ =>
      Transmits.before .get fun _ => .ite hfree (.ite (handleUdp_transmits _) (.ite (handleIcmp_transmits _) hfree))))

theorem gmacReceive_transmits : Transmits P n gmacReceive := by
  have hassign : ∀ f : Stack → Stack, (∀ s, (f s).ourIp = s.ourIp ∧ (f s).arp = s.arp ∧ (f s).trace = s.trace) →
      Transmits P 0 (modify f : Net Unit) := fun f hf => assign_transmits hf
  refine Transmits.before .get fun _ => Transmits.before .get fun _ => .ite (Transmits.pure _) (.ite
    (Transmits.before (hassign _ fun _ => ⟨rfl, rfl, rfl⟩) fun _ => .pure _) (Transmits.before .get fun s => ?_))
  split
  · exact Spends.throw _
  · exact Transmits.before (modifyPacket_transmits _ _) fun _ => Transmits.before allocateNetworkPacket_transmits fun _ =>
      Transmits.before (hassign _ fun _ => ⟨rfl, rfl, rfl⟩) fun _ =>
      Transmits.before (hassign _ fun _ => ⟨rfl, rfl, rfl⟩) fun _ =>
      Transmits.before (hassign _ fun _ => ⟨rfl, rfl, rfl⟩) fun _ => .pure _

theorem gmacReceiveDone_transmits (slot : Fin 32) (status : RxStatus) (bytes : Memory) :
    Transmits P n (gmacReceiveDone slot status bytes) := by
  refine Transmits.before .get fun _ => .ite (Transmits.before .get fun s => ?_) (Transmits.pure _)
  split
  · exact .pure _
  · exact Transmits.before (modifyPacket_transmits _ _) fun _ => assign_transmits fun _ => ⟨rfl, rfl, rfl⟩

theorem sendTftpPacket_transmits (connection : TftpConnection) (destPort : Port) (bytes : List UInt8) :
    Transmits P 1 (sendTftpPacket connection destPort bytes) :=
  Transmits.before allocateNetworkPacket_transmits fun _ => Transmits.before (modifyPacket_transmits _ _) fun _ =>
    udpSendZeroCopy_transmits _ _ _ _

theorem tftpSendOnTimeout_transmits (connection : TftpConnection) {send : Net Unit} (hsend : Transmits P n send) :
    Transmits P n (tftpSendOnTimeout connection send) :=
  Transmits.before getTime_transmits fun _ => .ite (Transmits.andThen hsend fun _ => Transmits.before random_transmits fun _ =>
    Transmits.before getTime_transmits fun _ => .pure _) (Transmits.pure _)

theorem tryReadOack_transmits (connection : TftpConnection) : Transmits P n (tryReadOack connection) := by
  refine Transmits.before (udpReceiveZeroCopy_transmits _) fun taken => ?_
  cases taken with
  | none => exact .pure _
  | some packet =>
    refine Transmits.before (getPacket_transmits _) fun p => .ite (Transmits.pure _)
      (Transmits.before (freeNetworkPacket_transmits _) fun _ => ?_)
    split
    · exact .pure _
    · exact .pure _

/-- A datagram is answered once at most, at once or by what follows. -/
theorem tryReadData_transmits {α : Type} {rest : TftpResult × TftpConnection → Net α} (connection : TftpConnection)
    (size : Int) (hrest : ∀ out, Transmits P 1 (rest out)) (hnothing : ∀ out, out.1 = .nothing → Transmits P 0 (rest out)) :
    Transmits P 1 (tryReadData connection size >>= rest) := by
  have hanswer : ∀ {packet : PacketId} {send : Net Unit} {u : Stack}, Transmits P 1 send →
      wp (do send; freeNetworkPacket packet; return (TftpResult.nothing, connection))
        (fun out t => wp (rest out) (fun _ v => Transmitted P 1 u v) (fun _ _ => True) t) (fun _ _ => True) u := by
    intro packet send u hsend
    have hall : Transmits P 1 (do
        send
        freeNetworkPacket packet
        rest (TftpResult.nothing, connection)) :=
      Transmits.andThen hsend fun _ => Transmits.before (freeNetworkPacket_transmits _) fun _ => hnothing _ rfl
    simpa only [wp_bind, wp_pure] using hall u
  have hfreed : ∀ {packet : PacketId} {out : TftpResult × TftpConnection} {u : Stack},
      wp (do freeNetworkPacket packet; return out)
        (fun out t => wp (rest out) (fun _ v => Transmitted P 1 u v) (fun _ _ => True) t) (fun _ _ => True) u := by
    intro packet out u
    have hall : Transmits P 1 (do freeNetworkPacket packet; rest out) :=
      Transmits.before (freeNetworkPacket_transmits _) fun _ => hrest out
    simpa only [wp_bind, wp_pure] using hall u
  intro s
  rw [wp_bind]
  unfold tryReadData
  rw [wp_bind]
  have htake : Transmits P 0 (udpReceiveZeroCopy connection.clientPort) := udpReceiveZeroCopy_transmits _
  apply wp_next (htake s)
  intro taken t ht
  have hlater : ∀ {x : Net (TftpResult × TftpConnection)},
      wp x (fun out u => wp (rest out) (fun _ v => Transmitted P 1 t v) (fun _ _ => True) u) (fun _ _ => True) t →
      wp x (fun out u => wp (rest out) (fun _ v => Transmitted P 1 s v) (fun _ _ => True) u) (fun _ _ => True) t := by
    intro x hx
    apply wp_next hx
    intro out u hu
    apply wp_next hu
    intro _ v hv
    have hboth := (transmitted_graded P).trans ht hv
    rwa [Nat.zero_add] at hboth
  apply hlater
  cases taken with
  | none => exact hrest _ t
  | some packet =>
    rw [wp_bind, wp_getPacket]
    simp only [wp_ite]
    split
    · exact hanswer (sendTftpPacket_transmits _ _ _)
    · split
      · exact hanswer (sendTftpPacket_transmits _ _ _)
      · split
        · exact hfreed
        · exact hfreed

/-- A poll sends what is due and answers one datagram. -/
theorem tftpRead_transmits (connection : TftpConnection) (size : Int) : Transmits P 2 (tftpRead connection size) := by
  have hack : ∀ connection, Transmits P 1 (ackCurrentBlock connection) := fun _ => sendTftpPacket_transmits _ _ _
  unfold tftpRead
  split
  · have hrequest : Transmits P 1 (sendTftpRequest connection) := sendTftpPacket_transmits _ _ _
    exact Transmits.mono (Transmits.andThen (Transmits.andThen (tftpSendOnTimeout_transmits _ hrequest) fun _ =>
      Transmits.before (tryReadOack_transmits _) fun _ => .pure _) fun _ => .pure _) (Nat.le_succ 1)
  · refine Transmits.bind (m := 1) (n := 1) (tftpSendOnTimeout_transmits _ (hack _)) fun connection =>
      tryReadData_transmits connection size (fun out => ?_) fun out hout => ?_
    · exact .ite (.ite (Transmits.andThen (hack _) fun _ => .pure _) (Transmits.pure _)) (Transmits.pure _)
    · dsimp only
      rw [hout]
      exact .pure _
  · exact .pure _
  · exact .pure _

theorem dhcpSendPacket_transmits (type : DhcpPacketType) : Transmits P 1 (dhcpSendPacket type) :=
  Transmits.before allocateNetworkPacket_transmits fun _ => Transmits.before .get fun _ =>
    Transmits.before (modifyPacket_transmits _ _) fun _ => Transmits.before (emit_transmits rfl) fun _ => udpSendZeroCopy_transmits _ _ _ _

theorem setDhcpState_transmits (state : DhcpState) : Transmits P n (setDhcpState state) :=
  Transmits.before (modifyDhcp_transmits _) fun _ => emit_transmits rfl

theorem dhcpRead_transmits : Transmits P n dhcpRead := by
  refine Transmits.before (udpReceiveZeroCopy_transmits _) fun taken => ?_
  cases taken with
  | none => exact .pure _
  | some packet =>
    exact Transmits.before (getPacket_transmits _) fun _ => Transmits.before .get fun _ =>
      Transmits.before (assign_transmits fun _ => ⟨rfl, rfl, rfl⟩) fun _ => Transmits.before (freeNetworkPacket_transmits _) fun _ =>
      .pure _

theorem dhcpStart_transmits : Transmits P n dhcpStart :=
  Transmits.before (setDhcpState_transmits _) fun _ => Transmits.before random_transmits fun _ => Transmits.before getTime_transmits fun _ =>
    Transmits.before (modifyDhcp_transmits _) fun _ => udpListen_transmits _ _

/-- Reading is silent. -/
theorem answer_transmits : AnswerParts (fun _ => True) fun _ x => Transmits P 0 x where
  value := Transmits.pure
  state := Transmits.get
  next := Transmits.before
  read := dhcpRead_transmits
  assign := modifyDhcp_transmits
  offer := emit_transmits rfl
  ack := emit_transmits rfl
  enter _ _ := emit_transmits rfl

/-- The address of the host may be any that it is given. -/
theorem setOurIp_transmits (hP : ∀ ip, P ip) (ip : Ip) : Transmits P n (setOurIp ip) :=
  Spends.modify fun s => { Transmitted.silent (P := P) (s := s) (t := s) rfl (fun _ he => he) rfl with address := fun _ => hP ip }

theorem dhcpSendOnTimeout_transmits (type : DhcpPacketType) : Transmits P 1 (dhcpSendOnTimeout type) :=
  Transmits.before .get fun _ => Transmits.before getTime_transmits fun _ => .ite
    (Transmits.andThen (dhcpSendPacket_transmits type) fun _ => Transmits.before random_transmits fun _ =>
      Transmits.before getTime_transmits fun _ => modifyDhcp_transmits _) (Transmits.pure _)

/-- What is silent may come behind, also where it gives the host an address. -/
theorem Outgoing.quietly (h : Outgoing P n s t) (h' : Transmitted (fun _ => True) 0 t u) : Outgoing P n s u := by
  obtain ⟨frames, hframes, hlength, hkinds⟩ := h.frames
  obtain ⟨frames', hframes', hlength', _⟩ := h'.frames
  obtain rfl : frames' = [] := List.eq_nil_of_length_eq_zero (by omega)
  refine ⟨fun hno => h'.unmapped (h.unmapped hno), frames, ?_, hlength, hkinds⟩
  rw [hframes', hframes, List.nil_append]

theorem Transmits.sends {α : Type} {x : Net α} (h : Transmits P n x) : Leads (Outgoing P n) x := by
  intro s
  apply wp_next (h s)
  intro _ t ht
  exact ht.toOutgoing

/-- One packet at most, from the address that the host had when the call started. -/
theorem dhcpTask_sends : Leads (Outgoing P 1) dhcpTask := by
  intro s
  unfold dhcpTask
  rw [wp_bind, wp_get]
  split
  · exact Transmits.sends (.pure _) s
  · have hdiscover : Transmits P 1 dhcpDiscoverTask :=
      Transmits.andThen (dhcpSendOnTimeout_transmits _) fun _ => afterDiscover_of answer_transmits trivial
    exact hdiscover.sends s
  · rw [dhcpRequestingTask_eq, wp_bind]
    apply wp_next ((dhcpSendOnTimeout_transmits .request).sends s)
    intro _ t ht
    have hrest : Transmits (fun _ => True) 0 afterRequest :=
      afterRequest_of answer_transmits (setOurIp_transmits fun _ => trivial)
        (fun _ => assign_transmits fun _ => ⟨rfl, rfl, rfl⟩) trivial trivial
    apply wp_next (hrest t)
    intro _ u hu
    exact ht.quietly hu
  · exact ((dhcpBoundTask_of answer_transmits trivial).mono (Nat.zero_le 1)).sends s
  · have hrenew : Transmits P 1 dhcpRenew :=
      Transmits.andThen (dhcpSendOnTimeout_transmits _) fun _ => afterRenew_of answer_transmits trivial trivial
    have hrenewing : Transmits P 1 dhcpRenewingTask := Transmits.before .get fun _ =>
      Transmits.before getTime_transmits fun _ => .ite (Transmits.before (setDhcpState_transmits _) fun _ => hrenew) hrenew
    exact hrenewing.sends s
  · exact ((dhcpRebindingTask_of answer_transmits trivial).mono (Nat.zero_le 1)).sends s
  · exact Transmits.sends (.pure _) s

/-- How many frames a call sends at most, with so many entries in use. -/
def budget (entries : ℕ) : Op → ℕ
  | .receive => 2
  | .arpTask => entries
  | .readFile _ => 2
  | .sendToIp .. => 1
  | .udpSend .. => 1
  | .dhcpTask => 1
  | .dhcpRelease => 1
  | .abortDownload _ => 1
  | _ => 0

/-- Every call but the receiving of a frame. -/
theorem exec_sends {op : Op} (hop : op ≠ .receive) (s : Stack) :
    wp op.exec (fun _ t => Outgoing P (budget s.arp.usedEntries.length op) s t) (fun _ _ => True) s := by
  have hassign : ∀ {f : Stack → Stack}, (∀ s, (f s).ourIp = s.ourIp ∧ (f s).arp = s.arp ∧ (f s).trace = s.trace) →
      wp (modify f : Net Unit) (fun _ t => Outgoing P 0 s t) (fun _ _ => True) s := fun hf => (assign_transmits hf).sends s
  cases op with
  | receive => exact absurd rfl hop
  | receiveDone slot status bytes => exact (gmacReceiveDone_transmits slot status bytes).sends s
  | transmitDone slot =>
    apply hassign
    simp
  | transmitStatus tsr =>
    apply hassign
    simp
  | tick now =>
    apply hassign
    simp
  | arpTask => exact (arpEntriesTask_transmits s.arp.usedEntries).sends s
  | sendToIp bytes ip => exact (sendToIp_transmits bytes ip).sends s
  | udpListen port maxPacketCount => exact (udpListen_transmits port maxPacketCount).sends s
  | udpSend data size sourcePort destPort ip => exact (udpSend_transmits data size sourcePort destPort ip).sends s
  | udpReceive size port =>
    have hreceive : Transmits P 0 (do let _ ← udpReceive size port) :=
      Transmits.before (udpReceive_transmits size port) fun _ => .pure _
    exact hreceive.sends s
  | dhcpStart => exact dhcpStart_transmits.sends s
  | dhcpTask => exact dhcpTask_sends s
  | dhcpRelease => exact (dhcpSendPacket_transmits .release).sends s
  | downloadFile filename serverIp =>
    have hdownload : Transmits P 0 (downloadFile filename serverIp) :=
      Transmits.before .get fun _ => Transmits.before (Transmits.before (udpListen_transmits _ _) fun _ => .pure _) fun _ =>
        assign_transmits fun _ => ⟨rfl, rfl, rfl⟩
    exact hdownload.sends s
  | readFile size =>
    have hread : Transmits P 2 (readFile size) :=
      Transmits.before .get fun _ => Transmits.andThen (tftpRead_transmits _ _) fun _ => assign_transmits fun _ => ⟨rfl, rfl, rfl⟩
    exact hread.sends s
  | abortDownload errorMessage =>
    have habort : Transmits P 1 (do
        let s ← get
        tftpAbortDownload s.application.connection errorMessage) :=
      Transmits.before .get fun _ => sendTftpPacket_transmits _ _ _
    exact habort.sends s
  | setOurMac mac =>
    apply hassign
    simp
  | setOurIp ip =>
    have hset : Transmitted (fun _ => True) 0 s { s with ourIp := ip } := setOurIp_transmits (fun _ => trivial) ip s
    exact Outgoing.quietly ((transmitted_graded P).refl s).toOutgoing hset
  | setOurNetmask netmask =>
    apply hassign
    simp

end MiniIp.Invariant
