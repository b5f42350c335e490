import MiniIp.Invariant.Sound

/-!
# The pool, the driver and the MAC layer keep the invariant
-/

set_option autoImplicit false

namespace MiniIp.Invariant

open MiniIp.Source MiniIp.Library.Counting MiniIp.Library.Wp

variable {W : Prop} {U : QueueContent} {limit most : ℕ}
  {held loose : List PacketId} {s : Stack} {p q : PacketId}

/-- A header that the packet has room for lies in the buffer. -/
theorem Fits.inBuffer {room size : Int} {content : NetworkPacket} {site : Site}
    (h : Fits room content) (hroom : 0 ≤ room) (hsize : size ≤ content.length) :
    InBuffer (.window site content.index content.length size) := by
  obtain ⟨hindex, _, hend⟩ := h
  exact ⟨by omega, hend, by omega⟩

/-- Placing a header of `size` bytes uses up as much of the room. -/
theorem Fits.push {room size : Int} {content pushed : NetworkPacket} (h : Fits (room + size) content)
    (hsize : 0 ≤ size) (hindex : pushed.index = content.index - size)
    (hlength : pushed.length = content.length + size) : Fits room pushed := by
  obtain ⟨hi, hl, he⟩ := h
  exact ⟨by omega, by omega, by omega⟩

theorem Routed.weaken {a : Arp} {trace : List Event} (h : Routed loose a trace) :
    Routed (p :: loose) a trace :=
  { h with other := fun q hq => h.other q fun hl => hq (List.mem_cons_of_mem _ hl) }

/-- Freeing ends the wait of a packet that is in no queue any more. -/
theorem Routed.freed {a : Arp} {trace : List Event} (h : Routed (p :: loose) a trace)
    (hp : ∀ e, p ∉ (a.entries e).packetQueue) : Routed loose a (.freed p :: trace) where
  queued e q hq := by
    have hne : p ≠ q := fun heq => hp e (heq ▸ hq)
    simpa only [pending, if_neg hne] using h.queued e q hq
  other q hl hq := by
    by_cases hpq : p = q
    · simp [pending, hpq]
    · simpa only [pending, if_neg hpq] using h.other q (by simp [hl, Ne.symm hpq]) hq
  mapped e he := List.mem_cons_of_mem _ (h.mapped e he)
  delivered := h.delivered

/-- So does sending, to a MAC learned for the address the packet waited for. -/
theorem Routed.sent {a : Arp} {trace : List Event} {mac : Mac} {etherType : UInt16}
    (h : Routed [p] a trace) (hp : ∀ e, p ∉ (a.entries e).packetQueue)
    (learned : etherType = etherTypeIpv4 → ∀ ip, pending trace p = some ip →
      .arpMapped ip mac ∈ trace) : Routed [] a (.macSend p mac etherType :: trace) where
  queued e q hq := by
    have hne : p ≠ q := fun heq => hp e (heq ▸ hq)
    simpa only [pending, if_neg hne] using h.queued e q hq
  other q _ hq := by
    by_cases hpq : p = q
    · simp [pending, hpq]
    · simpa only [pending, if_neg hpq] using h.other q (by simpa using Ne.symm hpq) hq
  mapped e he := List.mem_cons_of_mem _ (h.mapped e he)
  delivered := ⟨learned, h.delivered⟩

theorem Owned.not_queued (h : Owned held s) (hp : p ∈ held) (e : ArpEntryId) :
    p ∉ (s.arp.entries e).packetQueue := fun hq => h.ne_arp hp e hq rfl

theorem Owned.freed (h : Owned (p :: held) s) :
    Owned held ((s.setPool (p :: s.freeNetworkPackets)).observe (.freed p)) := by
  intro q
  have hq := h q
  simp only [occurrences, List.count_cons, Stack.observe, Stack.setPool] at hq ⊢
  omega

theorem Base.freed (h : Base W U limit (p :: held) s) :
    Base W U limit held ((s.setPool (p :: s.freeNetworkPackets)).observe (.freed p)) where
  owned := h.owned.freed
  udpContent := h.udpContent
  arpFits := h.arpFits
  windows w event he := by
    rcases List.mem_cons.mp he with rfl | hold
    · trivial
    · exact h.windows w event hold
  txSlots := h.txSlots
  rxSlots := h.rxSlots
  arp := h.arp
  table hne := h.table (noEviction_cons.mp hne).2
  udp := h.udp

/-- `free_network_packet` takes a held packet back into the pool, also on its way from a queue. -/
theorem Sound.released (h : Sound W U limit (p :: held) s (p :: loose)) :
    Sound W U limit held ((s.setPool (p :: s.freeNetworkPackets)).observe (.freed p)) loose :=
  ⟨h.toBase.freed, fun hne => (h.route (noEviction_cons.mp hne).2).freed
    (h.owned.not_queued List.mem_cons_self)⟩

/-- A packet in the caller's hands may be freed. -/
theorem Sound.freed (h : Sound W U limit (p :: held) s loose) :
    Sound W U limit held ((s.setPool (p :: s.freeNetworkPackets)).observe (.freed p)) loose :=
  Sound.released ⟨h.toBase, fun hne => (h.route hne).weaken⟩

theorem Sound.stopped_poolEmpty (h : Sound W U limit held s) (hheld : held.length ≤ most)
    (hfree : s.freeNetworkPackets = []) : Stopped W U limit most .poolEmpty s where
  windows := h.windows
  delivered hne := (h.route hne).delivered
  node := by decide
  pool _ := ⟨hfree, held, hheld, h.toBase⟩

theorem Sound.stopped_transmitError (h : Sound W U limit held s) :
    Stopped W U limit most .transmitError s where
  windows := h.windows
  delivered hne := (h.route hne).delivered
  node := by decide
  pool hp := by cases hp

/-- `allocate_network_packet` takes a packet out of the pool, at the place for user data. -/
theorem allocateNetworkPacket_sound (h : Sound W U limit held s) (hheld : held.length ≤ most) :
    wp allocateNetworkPacket
      (fun p t => Sound W U limit (p :: held) t ∧
        (t.packets p).index = 144 ∧ (t.packets p).length = 0 ∧
        ∀ q, q ≠ p → t.packets q = s.packets q)
      (Stopped W U limit most) s := by
  unfold allocateNetworkPacket
  simp only [wp_bind, wp_get]
  split
  · next hfree => exact h.stopped_poolEmpty hheld hfree
  · next p rest hfree =>
    simp only [wp_bind, wp_modify, wp_modifyPacket, wp_pure]
    have howned : Owned (p :: held) (s.setPool rest) := by
      intro q
      have hq := h.owned q
      simp only [occurrences, hfree, List.count_cons, Stack.setPool] at hq ⊢
      omega
    have hsound : Sound W U limit (p :: held) (s.setPool rest) := { h with owned := howned }
    refine ⟨hsound.write List.mem_cons_self _, by simp [networkPacketHeaderSize], by simp, ?_⟩
    intro q hq
    simp [Function.update_of_ne hq]

/-- The slot of the ring takes the packet, and the one it held comes into the caller's hands. -/
theorem Owned.linked {old : PacketId} {i : Fin 8} (h : Owned (p :: held) s)
    (hold : s.gmac.txPackets i = some old) : Owned (old :: held) (s.setTxPacket i p) := by
  intro q
  have hq := h q
  have hslots := slots_update_add s.gmac.txPackets i (some p) q
  simp only [hold, Option.some.injEq] at hslots
  simp only [occurrences, List.count_cons, beq_iff_eq, Stack.setTxPacket] at hq ⊢
  omega

/-- The packet takes the place of the one that the descriptor held. -/
theorem Sound.linked {old : PacketId} {i : Fin 8} (h : Sound W U limit (p :: held) s)
    (hold : s.gmac.txPackets i = some old) :
    Sound W U limit (old :: held) (s.setTxPacket i p) := by
  have hslots : ∀ j, ((s.setTxPacket i p).gmac.txPackets j).isSome := by
    intro j
    by_cases hj : j = i
    · simp [hj]
    · simpa [Function.update_of_ne hj] using h.txSlots j
  exact { h with owned := h.owned.linked hold, txSlots := hslots }

/-- `gmac_send` hands a held packet to the hardware, or drops it when the ring is full. -/
theorem gmacSend_sound (h : Sound W U limit (p :: held) s) (hf : W → Fits 0 (s.packets p)) :
    wp (gmacSend p) (fun _ t => Sound W U limit held t) (Stopped W U limit most) s := by
  have hseen := (h.observe (.window .gmacSend (s.packets p).index (s.packets p).length 0)
    trivial fun w => (hf w).inBuffer (by omega) (hf w).2.1).observe
      (.gmacSend p (s.packets p).payload) trivial fun _ => trivial
  unfold gmacSend
  simp only [wp_bind, wp_recordWindow, wp_getPacket, wp_emit, wp_get, wp_ite, Stack.observe_gmac,
    wp_throw, wp_freeNetworkPacket]
  split
  · exact hseen.stopped_transmitError
  · split
    · exact hseen.freed
    · split
      · next hnone => simpa [hnone] using h.txSlots s.gmac.txIndex
      · next old hold =>
        simp only [wp_bind, wp_freeNetworkPacket, wp_getPacket, wp_modify]
        exact (hseen.linked hold).freed.congr rfl

/-- `mac_send` on a held packet with room for the header. A packet on its way from an ARP queue
goes to the MAC it waited for. -/
theorem macSend_base {mac : Mac} {etherType : UInt16} (h : Base W U limit (p :: held) s)
    (hf : W → Fits 14 (s.packets p))
    (hr : NoEviction s.trace → Routed [p] s.arp s.trace ∧
      (etherType = etherTypeIpv4 → ∀ ip, pending s.trace p = some ip → .arpMapped ip mac ∈ s.trace)) :
    wp (macSend p mac etherType) (fun _ t => Sound W U limit held t) (Stopped W U limit most) s := by
  unfold macSend
  simp only [wp_bind, wp_modifyPacket, wp_recordWindow, wp_get, wp_emit, Stack.write_packets,
    Stack.observe_packets, Function.update_self]
  have hpushed : ∀ q : NetworkPacket, q.index = (s.packets p).index - macHeaderSize →
      q.length = (s.packets p).length + macHeaderSize → W → Fits 0 q := fun q hi hl w =>
    Fits.push (hf w) (by decide) hi hl
  refine gmacSend_sound ⟨(((h.write List.mem_cons_self _).observe _ (by simp) ?_).write
    List.mem_cons_self _).observe _ (by simp) (fun _ => trivial), fun hne => ?_⟩ ?_
  · intro w
    have hlength := (hf w).2.1
    exact (hpushed { s.packets p with
      length := (s.packets p).length + macHeaderSize
      index := (s.packets p).index - macHeaderSize } rfl rfl w).inBuffer (by omega) (by simpa)
  · simp only [Stack.observe_trace, Stack.write_trace, Stack.observe_arp, Stack.write_arp] at hne ⊢
    have hne' : NoEviction s.trace := by simpa using hne
    obtain ⟨hroute, hlearned⟩ := hr hne'
    refine Routed.sent (hroute.neutral trivial) (h.owned.not_queued List.mem_cons_self) ?_
    intro htype ip hip
    rw [pending_neutral (by trivial)] at hip
    exact List.mem_cons_of_mem _ (hlearned htype ip hip)
  · intro w
    simp only [Stack.observe_packets, Stack.write_packets, Function.update_self]
    exact hpushed _ rfl rfl w

theorem Sound.pending_held (h : Sound W U limit held s) (hp : p ∈ held)
    (hne : NoEviction s.trace) : pending s.trace p = none :=
  (h.route hne).other p List.not_mem_nil (h.owned.not_queued hp)

/-- A packet in the caller's hands may be given to the MAC layer, and is given away. -/
theorem macSend_sound {mac : Mac} {etherType : UInt16} (h : Sound W U limit (p :: held) s)
    (hf : W → Fits 14 (s.packets p)) :
    wp (macSend p mac etherType) (fun _ t => Sound W U limit held t) (Stopped W U limit most) s := by
  refine macSend_base h.toBase hf fun hne => ⟨(h.route hne).weaken, fun _ ip hip => ?_⟩
  rw [h.pending_held List.mem_cons_self hne] at hip
  cases hip

/-- `send_arp_packet` builds its packet from the pool and sends it. -/
theorem sendArpPacket_sound {targetMac : Mac} {targetIp : Ip} {arpType : ArpType}
    (h : Sound W U limit held s) (hheld : held.length ≤ most) :
    wp (sendArpPacket targetMac targetIp arpType) (fun _ t => Sound W U limit held t)
      (Stopped W U limit most) s := by
  unfold sendArpPacket
  rw [wp_bind]
  refine wp_next (allocateNetworkPacket_sound h hheld) fun p t hpost => ?_
  obtain ⟨ht, hindex, hlength, _⟩ := hpost
  simp only [wp_bind, wp_recordWindow, wp_get, wp_modifyPacket, wp_ite, macBroadcast]
  have hseen : Sound W U limit (p :: held) (t.observe (.window .sendArpPacket (t.packets p).index
      (t.packets p).length arpHeaderSize)) := by
    refine ht.observe _ trivial fun _ => ?_
    simp [InBuffer, hindex, hlength, arpHeaderSize]
  split
  · refine macSend_sound (hseen.write List.mem_cons_self _) fun _ => ?_
    simp [Fits, hindex, arpHeaderSize]
  · refine macSend_sound (hseen.write List.mem_cons_self _) fun _ => ?_
    simp [Fits, hindex, arpHeaderSize]

end MiniIp.Invariant
