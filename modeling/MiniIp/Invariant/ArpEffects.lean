import MiniIp.Invariant.ArpFrame

/-!
# What an ARP frame does to the table

`update_arp_mapping` assigns to one entry, the first in use with the address, and
sends what waits on it. `handle_arp` calls it for a reply to us and for no other
frame.
-/

set_option autoImplicit false

namespace MiniIp.Invariant

open MiniIp.Source MiniIp.Library.Wp

variable {s t : Stack} {e : ArpEntryId}

/-- The frame in which a packet goes to a MAC. -/
def ipv4Frame (mac : Mac) (s : Stack) (q : PacketId) : List UInt8 :=
  (macFramed mac s.ourMac etherTypeIpv4 (s.packets q)).payload

/-- All of the table but one entry is as it was, and of that one all but its queue. -/
structure WaitingOnly (e : ArpEntryId) (s t : Stack) : Prop where
  used : t.arp.usedEntries = s.arp.usedEntries
  free : t.arp.freeEntries = s.arp.freeEntries
  others : ∀ e', e' ≠ e → t.arp.entries e' = s.arp.entries e'
  entry : ∃ queue, t.arp.entries e = { s.arp.entries e with packetQueue := queue }
  unsent : unsent t = unsent s

/-- The packets have been passed to `mac_send` one after the other, and the queue is empty. -/
structure Flushed (e : ArpEntryId) (packets : List PacketId) (s t : Stack) : Prop where
  queue : (t.arp.entries e).packetQueue = []
  passed : passedToMac t.trace =
    (packets.reverse.map fun q => (q, (s.arp.entries e).mac, etherTypeIpv4)) ++ passedToMac s.trace
  frames : packets.Nodup →
    sentFrames t.trace = packets.reverse.map (ipv4Frame (s.arp.entries e).mac s) ++ sentFrames s.trace

theorem WaitingOnly.refl (e : ArpEntryId) (s : Stack) : WaitingOnly e s s :=
  ⟨rfl, rfl, fun _ _ => rfl, ⟨(s.arp.entries e).packetQueue, rfl⟩, rfl⟩

theorem WaitingOnly.trans {u : Stack} (h : WaitingOnly e s t) (h' : WaitingOnly e t u) : WaitingOnly e s u := by
  obtain ⟨queue, hqueue⟩ := h.entry
  obtain ⟨queue', hqueue'⟩ := h'.entry
  refine ⟨h'.used.trans h.used, h'.free.trans h.free, fun e' he => (h'.others e' he).trans (h.others e' he),
    ⟨queue', ?_⟩, h'.unsent.trans h.unsent⟩
  rw [hqueue', hqueue]

theorem WaitingOnly.mac (h : WaitingOnly e s t) : (t.arp.entries e).mac = (s.arp.entries e).mac := by
  obtain ⟨queue, hqueue⟩ := h.entry
  rw [hqueue]

theorem WaitingOnly.ourMac (h : WaitingOnly e s t) : t.ourMac = s.ourMac := congrArg (·.2.1) h.unsent

/-- Another queue for the entry, and then a call of `mac_send`. -/
theorem waitingOnly_sent {p : PacketId} {mac : Mac} {etherType : UInt16} {queue : List PacketId}
    (h : MacSent p mac etherType (s.setEntry e { s.arp.entries e with packetQueue := queue }) t) : WaitingOnly e s t := by
  constructor
  · rw [h.arp, Stack.setEntry_arp_usedEntries]
  · rw [h.arp, Stack.setEntry_arp_freeEntries]
  · intro e' he
    rw [h.arp, Stack.setEntry_arp_entries, Function.update_of_ne he]
  · exact ⟨queue, by rw [h.arp, Stack.setEntry_arp_entries, Function.update_self]⟩
  · exact h.unsent

/-- The packets of the queue are sent in its order. -/
theorem sendPacketsOnEntry_flushes {packets : List PacketId} (hqueue : (s.arp.entries e).packetQueue = packets) :
    wp (sendPacketsOnEntry e packets) (fun _ t => WaitingOnly e s t ∧ Flushed e packets s t)
      (fun _ t => WaitingOnly e s t) s := by
  induction packets generalizing s with
  | nil => exact ⟨.refl e s, hqueue, rfl, fun _ => rfl⟩
  | cons p rest ih =>
    rw [sendPacketsOnEntry]
    simp only [wp_bind, wp_modifyEntry, wp_get]
    apply wp_mono (macSend_sent p _ etherTypeIpv4 _)
    · intro _ t ht
      have honly : WaitingOnly e s t := waitingOnly_sent ht
      have hrest : (t.arp.entries e).packetQueue = rest := by
        rw [ht.arp, Stack.setEntry_arp_entries, Function.update_self]
      have hmac : (s.setEntry e { s.arp.entries e with packetQueue := rest }).arp.entries e =
          { s.arp.entries e with packetQueue := rest } := Function.update_self _ _ _
      apply wp_mono (ih hrest)
      · intro _ u hu
        obtain ⟨honly', hflushed⟩ := hu
        refine ⟨honly.trans honly', hflushed.queue, ?_, fun hnodup => ?_⟩
        · rw [hflushed.passed, honly.mac, ht.passed, hmac]
          simp
        · obtain ⟨hfresh, hnodup⟩ := List.nodup_cons.mp hnodup
          have hsame : rest.reverse.map (ipv4Frame (t.arp.entries e).mac t) =
              rest.reverse.map (ipv4Frame (s.arp.entries e).mac s) := by
            apply List.map_congr_left
            intro q hq
            have hne : q ≠ p := by
              rintro rfl
              exact hfresh (List.mem_reverse.mp hq)
            rw [ipv4Frame, ipv4Frame, honly.mac, honly.ourMac, ht.packets q hne]
            rfl
          rw [hflushed.frames hnodup, hsame, ht.frames, hmac]
          simp [ipv4Frame]
      · intro _ u hu
        exact honly.trans hu
    · intro _ t ht
      exact waitingOnly_sent ht

/-- The entry that `find_arp_entry` returns. -/
def entryFor (s : Stack) (ip : Ip) : Option ArpEntryId :=
  s.arp.usedEntries.find? fun entry => (s.arp.entries entry).ip = ip

/-- The entry has its mapping, and what waits on it has not been sent yet. -/
def mapped (e : ArpEntryId) (ip : Ip) (mac : Mac) (s : Stack) : Stack :=
  (s.observe (.arpMapped ip mac)).setEntry e
    { s.arp.entries e with mac := mac, containValidMapping := true, time := s.time }

/-- The entry is the one for the address, and is not valid yet. -/
structure Unresolved (s : Stack) (ip : Ip) (e : ArpEntryId) : Prop where
  found : entryFor s ip = some e
  invalid : (s.arp.entries e).containValidMapping = false

theorem Unresolved.used {ip : Ip} (h : Unresolved s ip e) : e ∈ s.arp.usedEntries := List.mem_of_find?_eq_some h.found

theorem Unresolved.ip {ip : Ip} (h : Unresolved s ip e) : (s.arp.entries e).ip = ip := by
  have hip := List.find?_some h.found
  simpa using hip

theorem mapped_entry (e : ArpEntryId) (ip : Ip) (mac : Mac) (s : Stack) : (mapped e ip mac s).arp.entries e =
    { s.arp.entries e with mac := mac, containValidMapping := true, time := s.time } := Function.update_self _ _ _

theorem mapped_other {e' : ArpEntryId} (h : e' ≠ e) (ip : Ip) (mac : Mac) (s : Stack) :
    (mapped e ip mac s).arp.entries e' = s.arp.entries e' := Function.update_of_ne h _ _

/-- The mapping is assigned, and then the queue is sent. -/
theorem updateArpMapping_sends {ip : Ip} (hentry : Unresolved s ip e) (mac : Mac) {Q : Unit → Stack → Prop}
    {E : Halt → Stack → Prop} : wp (updateArpMapping ip mac true) Q E s ↔
      wp (sendPacketsOnEntry e (s.arp.entries e).packetQueue) Q E (mapped e ip mac s) := by
  have hqueue : ((mapped e ip mac s).arp.entries e).packetQueue = (s.arp.entries e).packetQueue := by
    rw [mapped_entry]
  have hfind : s.arp.usedEntries.find? (fun entry => (s.arp.entries entry).ip = ip) = some e := hentry.found
  have hinvalid : ¬ (True ∧ (s.arp.entries e).containValidMapping = true) := by simp [hentry.invalid]
  unfold updateArpMapping findArpEntry
  simp only [wp_bind, wp_get, wp_pure, hfind, if_neg hinvalid, wp_getTime, wp_emit, wp_modifyEntry]
  rw [← hqueue]
  rfl

/-- A mapping that is not there, or is valid already, is left alone. -/
theorem updateArpMapping_skips {ip : Ip} (hnone : ∀ e, ¬ Unresolved s ip e) (mac : Mac) {Q : Unit → Stack → Prop}
    {E : Halt → Stack → Prop} : wp (updateArpMapping ip mac true) Q E s ↔ Q () s := by
  unfold updateArpMapping findArpEntry
  simp only [wp_bind, wp_get, wp_pure]
  split
  · rfl
  · next e hfound =>
    have hvalid : (s.arp.entries e).containValidMapping = true := by
      by_contra hinvalid
      exact hnone e ⟨hfound, Bool.eq_false_iff.mpr hinvalid⟩
    simp only [wp_bind, wp_get, hvalid, and_self, if_true, wp_pure]

/-- The entry of the address becomes valid, and what waits there is sent. -/
theorem updateArpMapping_maps (ip : Ip) (mac : Mac) (s : Stack) :
    wp (updateArpMapping ip mac true)
      (fun _ t => t = s ∨ ∃ e, Unresolved s ip e ∧ WaitingOnly e (mapped e ip mac s) t ∧
        Flushed e (s.arp.entries e).packetQueue (mapped e ip mac s) t)
      (fun _ t => ∃ e, Unresolved s ip e ∧ WaitingOnly e (mapped e ip mac s) t) s := by
  by_cases hentry : ∃ e, Unresolved s ip e
  · obtain ⟨e, hentry⟩ := hentry
    have hqueue : ((mapped e ip mac s).arp.entries e).packetQueue = (s.arp.entries e).packetQueue := by
      rw [mapped_entry]
    rw [updateArpMapping_sends hentry]
    apply wp_mono (sendPacketsOnEntry_flushes hqueue)
    · intro _ t ht
      exact .inr ⟨e, hentry, ht⟩
    · intro _ t ht
      exact ⟨e, hentry, ht⟩
  · rw [updateArpMapping_skips (not_exists.mp hentry)]
    exact .inl rfl

/-- The frame is a reply that is for us and for the entry. -/
structure Resolves (s : Stack) (frame : NetworkPacket) (e : ArpEntryId) : Prop where
  operation : readBe16 frame.data (frame.index + 6) = arpOperationReply
  header : validateArpHeader frame.data frame.index = true
  target : readBe32 frame.data (frame.index + 24) = s.ourIp
  sender : readBe32 frame.data (frame.index + 14) = (s.arp.entries e).ip
  distinct : readBe32 frame.data (frame.index + 14) ≠ readBe32 frame.data (frame.index + 24)

/-- The `senders_mac` of a frame. -/
def arpSendersMac (frame : NetworkPacket) : Mac := readMac frame.data (frame.index + 8)

def arpSendersIp (frame : NetworkPacket) : Ip := readBe32 frame.data (frame.index + 14)

/-- The table after the frame, up to the queue of the entry it resolves. -/
structure Resolved (frame : NetworkPacket) (e : ArpEntryId) (s t : Stack) : Prop where
  resolves : Resolves s frame e
  entry : Unresolved s (arpSendersIp frame) e
  table : WaitingOnly e (mapped e (arpSendersIp frame) (arpSendersMac frame) s) t

/-- The frame has left the table alone. At most a reply has been sent. -/
structure Ignored (s t : Stack) : Prop where
  arp : t.arp = s.arp
  unsent : unsent t = unsent s
  frames : ∃ replies, sentFrames t.trace = replies ++ sentFrames s.trace ∧
    ∀ frame ∈ replies, ∃ mac ip old, frame = arpFrame s mac ip .reply old

theorem Ignored.ofSame (harp : t.arp = s.arp) (hunsent : Invariant.unsent t = Invariant.unsent s)
    (hframes : sentFrames t.trace = sentFrames s.trace) : Ignored s t :=
  ⟨harp, hunsent, [], hframes, by simp⟩

/-- A reply is sent, or the pool is empty. -/
theorem sendArpPacket_ignored (mac : Mac) (ip : Ip) (s : Stack) :
    wp (sendArpPacket mac ip .reply) (fun _ t => Ignored s t) (fun _ t => Ignored s t) s := by
  cases hpool : s.freeNetworkPackets with
  | nil =>
    unfold sendArpPacket
    rw [wp_bind]
    unfold wp
    rw [allocateNetworkPacket_nil hpool]
    exact .ofSame rfl rfl rfl
  | cons p rest =>
    have hsent : ∀ t, ArpSent (arpFrame s mac ip .reply (s.packets p)) s t → Ignored s t := by
      intro t ht
      refine ⟨ht.arp, ht.unsent, [_], ht.frames, ?_⟩
      intro frame hframe
      exact ⟨mac, ip, s.packets p, List.mem_singleton.mp hframe⟩
    apply wp_mono (sendArpPacket_sent hpool mac ip .reply)
    · intro _ t ht
      exact hsent t ht
    · intro _ t ht
      exact hsent t ht

/-- A frame resolves one entry, whose queue is sent, or leaves the table alone. -/
theorem handleArp_effect (p : PacketId) (s : Stack) :
    wp (handleArp p)
      (fun _ t => Ignored s t ∨ ∃ e, Resolved (s.packets p) e s t ∧
        Flushed e (s.arp.entries e).packetQueue (mapped e (arpSendersIp (s.packets p)) (arpSendersMac (s.packets p)) s) t)
      (fun _ t => Ignored s t ∨ ∃ e, Resolved (s.packets p) e s t) s := by
  let seen := s.observe (.window .handleArp (s.packets p).index (s.packets p).length arpHeaderSize)
  have hignored : ∀ t, Ignored seen t → Ignored s t := fun t ht => ⟨ht.arp, ht.unsent, ht.frames⟩
  unfold handleArp
  simp only [wp_bind, wp_getPacket, wp_ite, wp_freeNetworkPacket, wp_recordWindow, wp_get]
  split
  · exact .inl (.ofSame rfl rfl rfl)
  · split
    · exact .inl (.ofSame rfl rfl rfl)
    · next hheader =>
      have hvalid : validateArpHeader (s.packets p).data (s.packets p).index = true := by simpa using hheader
      split
      · next hoperation =>
        split
        · next hreply =>
          have hresolved : ∀ e t, Unresolved seen (arpSendersIp (s.packets p)) e →
              WaitingOnly e (mapped e (arpSendersIp (s.packets p)) (arpSendersMac (s.packets p)) seen) t →
              Resolved (s.packets p) e s t := by
            intro e t hentry honly
            refine ⟨⟨hoperation, hvalid, hreply.2, hentry.ip.symm, hreply.1⟩, ⟨hentry.found, hentry.invalid⟩, ?_⟩
            exact ⟨honly.used, honly.free, honly.others, honly.entry, honly.unsent⟩
          apply wp_mono (updateArpMapping_maps (arpSendersIp (s.packets p)) (arpSendersMac (s.packets p)) seen)
          · intro _ t ht
            rcases ht with rfl | ⟨e, hentry, honly, hflushed⟩
            · exact .inl (.ofSame rfl rfl rfl)
            · have hfinal := hresolved e t hentry honly
              refine .inr ⟨e, ⟨hfinal.resolves, hfinal.entry, ?_⟩, hflushed.queue, hflushed.passed, hflushed.frames⟩
              exact ⟨honly.used, honly.free, honly.others, honly.entry, honly.unsent⟩
          · intro _ t ht
            obtain ⟨e, hentry, honly⟩ := ht
            exact .inr ⟨e, hresolved e t hentry honly⟩
        · exact .inl (.ofSame rfl rfl rfl)
      · split
        · split
          · apply wp_mono (sendArpPacket_ignored _ _ seen)
            · intro _ t ht
              exact .inl ⟨ht.arp, ht.unsent, ht.frames⟩
            · intro _ t ht
              exact .inl (hignored t ht)
          · exact .inl (.ofSame rfl rfl rfl)
        · exact .inl (.ofSame rfl rfl rfl)

end MiniIp.Invariant
