import MiniIp.Invariant.WireRun

/-!
# Only frames of the wire format are sent

`Formed addresses owner s` says that every frame sent so far has the format of `MiniIp.Invariant.WireFormat`, that
every packet that waits for a MAC address may be sent as it is, to the address of its entry, and that what the table
knows is true. The addresses of the host stay in `addresses`, and what it hears of ARP is true of `owner`.
-/

set_option autoImplicit false

namespace MiniIp.Invariant

open MiniIp.Source MiniIp.Library.Counting MiniIp.Library.Wp

/-- Every frame has been well formed, and what waits in the ARP table will be. -/
structure Formed (addresses : Ip → Prop) (owner : Ip → Mac → Prop) (s : Stack) : Prop where
  waiting : ∀ e, ∀ p ∈ (s.arp.entries e).packetQueue, ∃ ip, Sendable addresses (sentDatagrams s.trace) ip (s.packets p) ∧
    (NoEviction s.trace → ip = (s.arp.entries e).ip)
  frames : ∀ frame ∈ sentFrames s.trace, WireFrame addresses owner s.trace frame
  known : ∀ e, (s.arp.entries e).containValidMapping = true → owner (s.arp.entries e).ip (s.arp.entries e).mac

variable {addresses : Ip → Prop} {owner : Ip → Mac → Prop} {U : QueueContent} {limit : ℕ} {held rest : List PacketId}
  {s t u : Stack} {p q : PacketId} {e e' : ArpEntryId} {ip : Ip} {mac : Mac} {etherType : UInt16}

/-- Frames of the format are sent, and what waits has waited before. -/
theorem Formed.sends (h : Formed addresses owner s) (frames : List (List UInt8))
    (hwaiting : ∀ e, ∀ p ∈ (t.arp.entries e).packetQueue, p ∈ (s.arp.entries e).packetQueue ∧ t.packets p = s.packets p ∧
      (t.arp.entries e).ip = (s.arp.entries e).ip)
    (hframes : sentFrames t.trace = frames ++ sentFrames s.trace) (hpast : s.trace <:+ t.trace)
    (hnew : ∀ frame ∈ frames, WireFrame addresses owner t.trace frame)
    (hknown : ∀ e, (t.arp.entries e).containValidMapping = true → owner (t.arp.entries e).ip (t.arp.entries e).mac) :
    Formed addresses owner t := by
  refine ⟨?_, ?_, hknown⟩
  · intro e p hp
    obtain ⟨hmem, hsame, hip⟩ := hwaiting e p hp
    obtain ⟨ip, hpacket, htarget⟩ := h.waiting e p hmem
    rw [hsame, hip]
    exact ⟨ip, hpacket.later (sentDatagrams_later hpast), fun hno => htarget (noEviction_suffix hno hpast)⟩
  · intro frame hmem
    rw [hframes] at hmem
    rcases List.mem_append.mp hmem with hfresh | hold
    · exact hnew frame hfresh
    · exact (h.frames frame hold).later hpast

theorem Formed.idle (h : Formed addresses owner s) (hidle : Idle s t) : Formed addresses owner t := by
  apply h.sends [] (fun e p hp => ⟨(hidle.queues e).subset hp, hidle.waiting e p hp⟩) hidle.frames hidle.past
  · simp
  · intro e hvalid
    obtain ⟨hbefore, hip, hmac⟩ := hidle.mappings e hvalid
    rw [hip, hmac]
    exact h.known e hbefore

/-- The packet does not wait, and makes a frame of the format. -/
theorem macSend_formed (h : Formed addresses owner s) (hnot : ∀ e, p ∉ (s.arp.entries e).packetQueue)
    (hframe : WireFrame addresses owner s.trace (macFramed mac s.ourMac etherType (s.packets p)).payload) :
    wp (macSend p mac etherType) (fun _ t => Formed addresses owner t) (fun _ _ => True) s := by
  have hdelivers : Delivers True (macSend p mac etherType) := macSend_delivers _ _ _
  apply wp_partial (wp_and (macSend_sent p mac etherType s) (hdelivers s))
  rintro _ t ⟨hsent, hkept⟩
  apply h.sends [(macFramed mac s.ourMac etherType (s.packets p)).payload]
  · intro e q hq
    rw [hsent.arp] at hq ⊢
    have hne : q ≠ p := by
      rintro rfl
      exact hnot e hq
    exact ⟨hq, hsent.packets q hne, rfl⟩
  · exact hsent.frames
  · exact hkept.past
  · intro frame hmem
    rw [List.mem_singleton.mp hmem]
    exact hframe.later hkept.past
  · rw [hsent.arp]
    exact h.known

theorem sendArpPacket_formed {arpType : ArpType} (h : Formed addresses owner s) (howned : Owned held s) (hown : addresses s.ourIp)
    (htype : arpType = .request ∨ arpType = .reply) (targetMac : Mac) (targetIp : Ip) :
    wp (sendArpPacket targetMac targetIp arpType) (fun _ t => Formed addresses owner t) (fun _ _ => True) s := by
  apply wp_sendArpPacket howned
  intro q built hbuilt
  have hwire : WireFrame addresses owner built.trace _ ∧ WireFrame addresses owner built.trace _ :=
    arpFrame_wire s targetMac targetIp (s.packets q) hown
  apply macSend_formed (h.idle hbuilt.idle) hbuilt.apart
  rw [hbuilt.packet, hbuilt.ourMac]
  rcases htype with rfl | rfl
  · exact hwire.1
  · exact hwire.2

theorem appendToArpEntryQueue_formed (h : Formed addresses owner s)
    (hpacket : Sendable addresses (sentDatagrams s.trace) ip (s.packets p)) (hip : (s.arp.entries e).ip = ip) :
    wp (appendToArpEntryQueue p e) (fun _ t => Formed addresses owner t) (fun _ _ => True) s := by
  unfold appendToArpEntryQueue
  simp only [wp_bind, wp_modifyEntry, wp_recordWindow]
  let appended := s.setEntry e { s.arp.entries e with
    packetQueue := (s.arp.entries e).packetQueue ++ [p], packetCount := (s.arp.entries e).packetCount + 1 }
  have happended : Formed addresses owner appended := by
    refine ⟨fun x q hq => ?_, h.frames, fun x => ?_⟩
    · by_cases hx : x = e
      · subst hx
        simp only [appended, Stack.setEntry_arp_entries, Function.update_self] at hq ⊢
        rcases List.mem_append.mp hq with hold | hnew
        · exact h.waiting x q hold
        · rw [List.mem_singleton.mp hnew]
          exact ⟨ip, hpacket, fun _ => hip.symm⟩
      · simp only [appended, Stack.setEntry_arp_entries, Function.update_of_ne hx] at hq ⊢
        exact h.waiting x q hq
    · by_cases hx : x = e
      · subst hx
        simp only [appended, Stack.setEntry_arp_entries, Function.update_self]
        exact h.known x
      · simp only [appended, Stack.setEntry_arp_entries, Function.update_of_ne hx]
        exact h.known x
  exact happended.idle (Idle.observe rfl appended)

theorem addToArpEntryQueue_formed (h : Formed addresses owner s)
    (hpacket : Sendable addresses (sentDatagrams s.trace) ip (s.packets p)) (hip : (s.arp.entries e).ip = ip) :
    wp (addToArpEntryQueue p e) (fun _ t => Formed addresses owner t) (fun _ _ => True) s := by
  unfold addToArpEntryQueue
  simp only [wp_bind, wp_get, wp_ite]
  split
  · split
    · trivial
    · next old rest hqueue =>
      simp only [wp_bind, wp_modifyEntry, wp_freeNetworkPacket]
      have hsame : ((dropped e old rest s).arp.entries e).ip = ip := by
        rw [← hip]
        simp [dropped]
      exact appendToArpEntryQueue_formed (s := dropped e old rest s) (h.idle (dropped_idle hqueue)) hpacket hsame
  · exact appendToArpEntryQueue_formed h hpacket hip

/-- The entry is given an address. -/
theorem Formed.addressed (h : Formed addresses owner s) (hempty : NoEviction s.trace → (s.arp.entries e).packetQueue = [])
    (time : Time) : Formed addresses owner (s.setEntry e { s.arp.entries e with
      ip := ip, containValidMapping := false, time := time }) := by
  refine ⟨fun x q hq => ?_, h.frames, fun x hvalid => ?_⟩
  · by_cases hx : x = e
    · subst hx
      simp only [Stack.setEntry_arp_entries, Function.update_self] at hq
      obtain ⟨target, hpacket, _⟩ := h.waiting x q hq
      refine ⟨target, hpacket, fun hno => ?_⟩
      rw [hempty hno] at hq
      exact absurd hq List.not_mem_nil
    · simp only [Stack.setEntry_arp_entries, Function.update_of_ne hx] at hq ⊢
      exact h.waiting x q hq
  · by_cases hx : x = e
    · subst hx
      rw [Stack.setEntry_arp_entries, Function.update_self] at hvalid
      cases hvalid
    · rw [Stack.setEntry_arp_entries, Function.update_of_ne hx] at hvalid ⊢
      exact h.known x hvalid

/-- `arp_send` on a held packet. -/
theorem arpSend_formed (hs : Sound False U limit (p :: held) s) (h : Formed addresses owner s) (hown : addresses s.ourIp)
    (hpacket : Sendable addresses (sentDatagrams s.trace) ip (s.packets p)) :
    wp (arpSend p ip) (fun _ t => Formed addresses owner t) (fun _ _ => True) s := by
  have hstart := hs.requested ip
  have hpending : pending (s.observe (.arpSend p ip)).trace p = some ip := by simp [pending]
  have hseen : Formed addresses owner (s.observe (.arpSend p ip)) := h.idle (Idle.observe rfl s)
  unfold arpSend
  simp only [wp_bind, wp_emit, wp_findArpEntry]
  split
  · next e hfind =>
    have hip : (s.arp.entries e).ip = ip := by
      have hfound := List.find?_some hfind
      simpa using hfound
    simp only [wp_bind, wp_get, wp_ite, Stack.observe_arp]
    split
    · next hvalid =>
      have htowards : Towards owner (s.observe (.arpSend p ip)).trace (s.arp.entries e).mac ip := by
        have howner := h.known e hvalid
        rw [hip] at howner
        exact .inr fun _ => howner
      apply macSend_formed hseen (hs.owned.not_queued List.mem_cons_self)
      exact (hpacket.later (sentDatagrams_later (List.suffix_cons _ s.trace))).framed htowards _
    · exact addToArpEntryQueue_formed hseen hpacket hip
  · next hfind =>
    have hfresh : ∀ a ∈ s.arp.usedEntries, (s.arp.entries a).ip ≠ ip := by
      intro a ha
      have hnone := List.find?_eq_none.mp hfind a ha
      simpa using hnone
    have hallocated : wp allocateEntry _ (Stopped False U limit 96) _ := allocateEntry_sound hstart fun _ => hfresh
    have hdelivers : Delivers False allocateEntry := allocateEntry_delivers
    have hunused : wp allocateEntry _ (fun _ _ => True) _ := allocateEntry_unused hstart (p := p) List.mem_cons_self
    rw [wp_bind]
    apply wp_partial (wp_and hallocated (wp_and (allocateEntry_idles _) (wp_and hunused (hdelivers _))))
    rintro e t ⟨⟨hmem, hpackets, htrace, ht⟩, hidle, hempty, hkept⟩
    simp only [wp_bind, wp_getTime, wp_modifyEntry]
    let taken := t.setEntry e { t.arp.entries e with ip := ip, containValidMapping := false, time := t.time }
    have htaken : Formed addresses owner taken := (hseen.idle hidle).addressed hempty t.time
    have hwaits : Sendable addresses (sentDatagrams taken.trace) ip (taken.packets p) := by
      show Sendable addresses (sentDatagrams t.trace) ip (t.packets p)
      rw [hpackets]
      exact hpacket.later (sentDatagrams_later ((List.suffix_cons _ s.trace).trans hidle.past))
    have hip : (taken.arp.entries e).ip = ip := by simp [taken]
    have hadded : wp (addToArpEntryQueue p e) (fun _ u => Sound False U limit held u) (Stopped False U limit 96) taken := by
      apply addToArpEntryQueue_sound (ht t.time) False.elim
      · simp
      · intro hne
        rw [Stack.setEntry_trace, htrace hne, hpending]
        simp
      · intro _
        exact hmem
    have hadds : Delivers False (addToArpEntryQueue p e) := addToArpEntryQueue_delivers _ _
    apply wp_partial (wp_and (wp_and hadded (addToArpEntryQueue_formed htaken hwaits hip)) (hadds _))
    rintro _ u ⟨⟨hu, hformed⟩, hadded⟩
    have hsame : u.ourIp = s.ourIp := hadded.sends.ourIp.trans hkept.sends.ourIp
    apply sendArpPacket_formed hformed hu.owned
    · rw [hsame]
      exact hown
    · exact .inl rfl

/-- All that waits on the entry is sent. -/
theorem updateArpMapping_formed (howned : Owned held s) (h : Formed addresses owner s) (howner : owner ip mac) :
    wp (updateArpMapping ip mac true) (fun _ t => Formed addresses owner t) (fun _ _ => True) s := by
  by_cases hentry : ∃ e, Unresolved s ip e
  · obtain ⟨e, hentry⟩ := hentry
    have hqueue : ((mapped e ip mac s).arp.entries e).packetQueue = (s.arp.entries e).packetQueue := by
      rw [mapped_entry]
    rw [updateArpMapping_sends hentry]
    apply wp_partial (wp_and (sendPacketsOnEntry_flushes hqueue) (sendPacketsOnEntry_others e _ _))
    rintro _ t ⟨⟨honly, hflushed⟩, hlater, hothers⟩
    have hpast : s.trace <:+ t.trace := (List.suffix_cons _ s.trace).trans hlater
    apply h.sends ((s.arp.entries e).packetQueue.reverse.map (ipv4Frame mac s))
    · intro e' q hq
      by_cases he : e' = e
      · subst he
        rw [hflushed.queue] at hq
        cases hq
      · rw [honly.others e' he, mapped_other he] at hq ⊢
        have hapart : q ∉ (s.arp.entries e).packetQueue := fun hmem => he (howned.one_queue hq hmem)
        exact ⟨hq, hothers q hapart, rfl⟩
    · rw [hflushed.frames (howned.queue_nodup e), mapped_entry]
      rfl
    · exact hpast
    · intro frame hmem
      obtain ⟨q, hq, rfl⟩ := List.mem_map.mp hmem
      obtain ⟨target, hpacket, htarget⟩ := h.waiting e q (List.mem_reverse.mp hq)
      have htowards : Towards owner t.trace mac target := by
        refine .inr fun hno => ?_
        rwa [htarget (noEviction_suffix hno hpast), hentry.ip]
      exact Sendable.framed (hpacket.later (sentDatagrams_later hpast)) htowards s.ourMac
    · intro e' hvalid
      by_cases he : e' = e
      · subst he
        obtain ⟨queue, hafter⟩ := honly.entry
        rw [hafter, mapped_entry]
        show owner (s.arp.entries e').ip mac
        rwa [hentry.ip]
      · rw [honly.others e' he, mapped_other he] at hvalid ⊢
        exact h.known e' hvalid
  · rw [updateArpMapping_skips (not_exists.mp hentry)]
    exact h

/-- The packet of a datagram leaves as it is, or waits. -/
theorem route_formed (hs : Sound False U limit (p :: held) s) (h : Formed addresses owner s) (hown : addresses s.ourIp)
    (hpacket : Sendable addresses (sentDatagrams s.trace) ip (s.packets p)) :
    wp (route p ip) (fun _ t => Formed addresses owner t) (fun _ _ => True) s := by
  unfold route
  simp only [wp_bind, wp_get, wp_ite]
  split
  · apply macSend_formed h (hs.owned.not_queued List.mem_cons_self)
    exact hpacket.framed (.inl rfl) _
  · exact arpSend_formed hs h hown hpacket

/-- Well-formed frames are an invariant of what is sent. -/
theorem formed_wired : WireInvariant addresses owner (Formed addresses owner) where
  idle := Formed.idle
  datagram hs h hown hbuilt := by
    obtain ⟨sourcePort, destPort, k, hlength, hpacket, hsent⟩ := hbuilt.built
    apply route_formed hs (h.idle hbuilt.idle) hown
    rw [hpacket]
    apply udpIpFramed_sendable hlength.1 hlength.2 _ hown
    rw [hsent]
    exact List.mem_cons_self
  echo hs h hown hbuilt := by
    obtain ⟨k, hlength, hpacket⟩ := hbuilt
    apply route_formed hs h hown
    rw [hpacket]
    exact pingAnswered_sendable hlength.1 hlength.2 hown
  arpPacket howned h hown htype := sendArpPacket_formed h howned hown htype
  mapping hs h howner := updateArpMapping_formed hs.owned h howner

variable {application : Application} {time : Time} {entropy : Nat → UInt32}

/-- Nothing has been sent. -/
theorem booted_formed : Formed addresses owner (booted application time entropy) := by
  have hfresh : Fresh application time entropy (booted application time entropy) := booted_fresh
  constructor
  · intro e p hp
    rw [hfresh.arp.2.2 e] at hp
    exact absurd hp List.not_mem_nil
  · intro frame hmem
    rw [hfresh.trace] at hmem
    exact absurd hmem List.not_mem_nil
  · intro e hvalid
    rw [hfresh.arp.2.2 e] at hvalid
    cases hvalid

end MiniIp.Invariant
