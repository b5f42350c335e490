import MiniIp.Invariant.Adapter

/-!
# The transmit ring

`gmac_send` (gmac.c:222-253) gives the buffer of a slot back to the pool only when the slot comes
round again. The descriptors from the place of the hardware up to `tx_index` are
the hardware's, and they hold, in order, the packets that have been accepted and not yet been sent.
-/

set_option autoImplicit false

namespace MiniIp.Guarantees.TransmitRing

open MiniIp.Source MiniIp.Invariant MiniIp.Library.Ring MiniIp.Library.Runs MiniIp.Library.Wp

/-- The hardware is to send this packet, with these contents, from slot `i`. -/
structure Queued (s : Stack) (i : Fin 8) (item : PacketId × List UInt8) : Prop where
  owner : (s.gmac.txDescriptors i).owner = .gmac
  slot : s.gmac.txPackets i = some item.1
  address : ∃ offset, (s.gmac.txDescriptors i).address = some (item.1, offset)
  content : transmitted s i = some item

def Vacant (s : Stack) (i : Fin 8) : Prop := (s.gmac.txDescriptors i).owner = .cpu

/-- `inFlight` are the packets between the caller and the wire. -/
structure Transmitting (a : Adapter) (inFlight : List (PacketId × List UInt8)) : Prop where
  ring : Carries (Queued a.stack) (Vacant a.stack) a.txPosition inFlight
  index : a.stack.gmac.txIndex = slot a.txPosition inFlight.length
  history : a.accepted = a.sent ++ inFlight

variable {a b : Adapter} {s t : Stack} {i : Fin 8} {item : PacketId × List UInt8}
  {inFlight : List (PacketId × List UInt8)} {p : PacketId}

theorem Queued.kept (h : Queued s i item)
    (hdescriptor : t.gmac.txDescriptors i = s.gmac.txDescriptors i)
    (hslot : t.gmac.txPackets i = s.gmac.txPackets i) (hcontent : t.packets item.1 = s.packets item.1) :
    Queued t i item := by
  obtain ⟨howner, hpacket, ⟨offset, haddress⟩, htransmitted⟩ := h
  constructor
  · rw [hdescriptor]
    exact howner
  · rw [hslot]
    exact hpacket
  · exact ⟨offset, hdescriptor ▸ haddress⟩
  · rw [← htransmitted]
    simp only [transmitted, hdescriptor, haddress, Option.map_some, hcontent]

/-- What leaves the ring alone leaves everything in flight as it is. -/
theorem Transmitting.kept (h : Transmitting a inFlight) (hkept : TxKept a.stack b.stack)
    (hposition : b.txPosition = a.txPosition) (haccepted : b.accepted = a.accepted) (hsent : b.sent = a.sent) :
    Transmitting b inFlight := by
  constructor
  · rw [hposition]
    apply h.ring.mono
    · intro i item hitem
      apply hitem.kept
      · rw [hkept.descriptors]
      · rw [hkept.packets]
      · exact hkept.content i _ hitem.slot
    · intro i hi
      unfold Vacant
      rw [hkept.descriptors]
      exact hi
  · rw [hkept.index, hposition]
    exact h.index
  · rw [haccepted, hsent]
    exact h.history

theorem Transmitting.room (h : Transmitting a inFlight)
    (howner : (a.stack.gmac.txDescriptors a.stack.gmac.txIndex).owner = .cpu) : inFlight.length < 8 := by
  by_contra hfull
  have hround := h.ring.full (by omega)
  cases inFlight with
  | nil => exact hfull (by simp)
  | cons item rest =>
    have hhead := h.ring.head.owner
    rw [← hround, ← h.index, howner] at hhead
    cases hhead

/-- The ring is full where the descriptor at `tx_index` is the hardware's. -/
theorem Transmitting.full (h : Transmitting a inFlight)
    (howner : (a.stack.gmac.txDescriptors a.stack.gmac.txIndex).owner = .gmac) (i : Fin 8) :
    (a.stack.gmac.txDescriptors i).owner = .gmac := by
  have hfull : ¬ inFlight.length < 8 := by
    intro hroom
    have hvacant := h.ring.producer hroom
    rw [← h.index] at hvacant
    rw [Vacant, howner] at hvacant
    cases hvacant
  obtain ⟨k, hk, rfl⟩ := exists_slot a.txPosition i
  exact (h.ring.items k _ (List.getElem?_eq_getElem (by omega))).owner

theorem send_transmitting (hsane : Sane a) (h : Transmitting a inFlight) (hp : p ∈ a.held) :
    wp (Action.send p).exec (fun _ b => ∃ rest, Transmitting b rest) (fun _ _ => True) a := by
  simp only [Action.exec, wp_bind, wp_onPart, wp_modify, wp_get]
  apply wp_partial (gmacSend_sane hsane hp)
  intro _ t ht
  obtain ⟨⟨_, hhanded⟩, hsound⟩ := ht
  cases hhanded with
  | dropped owner kept freed =>
    exact ⟨inFlight, h.kept kept rfl (if_pos freed) rfl⟩
  | linked owner packets descriptors index content errors =>
    have hslot : t.gmac.txPackets a.stack.gmac.txIndex = some p := by
      rw [packets, Function.update_self]
    have hnot : p ∉ t.freeNetworkPackets := (hsound.owned.tx_apart hslot).1
    have hroom := h.room owner
    refine ⟨inFlight ++ [(p, (a.stack.packets p).payload)], ?_, ?_, ?_⟩
    · apply h.ring.push hroom
      · rw [← h.index]
        constructor
        · simp [descriptors]
        · exact hslot
        · exact ⟨(a.stack.packets p).index, by simp [descriptors]⟩
        · simp [transmitted, descriptors, content, NetworkPacket.payload]
      · intro i item hi hitem
        rw [← h.index] at hi
        apply hitem.kept
        · simp [descriptors, Function.update_of_ne hi]
        · simp [packets, Function.update_of_ne hi]
        · simp [content]
      · intro i hi hvacant
        rw [← h.index] at hi
        simpa [Vacant, descriptors, Function.update_of_ne hi] using hvacant
    · simp only [index, List.length_append, List.length_singleton, h.index, slot_next]
    · simp only [if_neg hnot, h.history, List.append_assoc]

theorem transmit_transmitting (h : Transmitting a inFlight)
    (howner : (a.stack.gmac.txDescriptors a.txPosition).owner = .gmac) :
    wp Action.transmit.exec (fun _ b => ∃ rest, Transmitting b rest) (fun _ _ => True) a := by
  cases inFlight with
  | nil =>
    have hvacant := h.ring.empty
    rw [Vacant, howner] at hvacant
    cases hvacant
  | cons item rest =>
    simp only [Action.exec, gmacTransmitDone, wp_bind, wp_onPart, wp_modify, wp_get]
    refine ⟨rest, ?_, ?_, ?_⟩
    · apply h.ring.pop
      · simp [Vacant]
      · intro i item hi hitem
        apply hitem.kept
        · simp [Function.update_of_ne hi]
        · rfl
        · rfl
      · intro i hi hvacant
        simpa [Vacant, Function.update_of_ne hi] using hvacant
    · have hindex := h.index
      rw [List.length_cons, ← slot_succ] at hindex
      exact hindex
    · simp only [h.ring.head.content, Option.toList_some, h.history, List.append_assoc, List.singleton_append]

theorem exec_transmitting {action : Action} (hsane : Sane a) (h : Transmitting a inFlight)
    (hallowed : action.Allowed a) :
    wp action.exec (fun _ b => ∃ rest, Transmitting b rest) (fun _ _ => True) a := by
  cases action with
  | allocate =>
    simp only [Action.exec, wp_bind, wp_onPart, wp_modify]
    apply wp_partial (allocateNetworkPacket_sane hsane)
    intro _ t ht
    exact ⟨inFlight, h.kept ht.1.1 rfl rfl rfl⟩
  | write p content =>
    exact ⟨inFlight, h.kept (txKept_write (hsane.sound.owned.held_not_tx hallowed) content) rfl rfl rfl⟩
  | free p => exact ⟨inFlight, h.kept ⟨rfl, rfl, rfl, rfl, fun _ _ _ => rfl⟩ rfl rfl rfl⟩
  | send p => exact send_transmitting hsane h hallowed
  | receive =>
    simp only [Action.exec, receiveCall, wp_bind, wp_onPart]
    apply wp_partial (gmacReceive_sane hsane)
    intro received t ht
    cases received with
    | none => exact ⟨inFlight, h.kept ht.1.1 rfl rfl rfl⟩
    | some p => exact ⟨inFlight, h.kept ht.1.1 rfl rfl rfl⟩
  | arrive length broadcast bytes =>
    simp only [Action.exec, wp_bind, wp_onPart, wp_modify, wp_get]
    apply wp_partial (gmacReceiveDone_sane hsane hallowed.1)
    intro _ t ht
    exact ⟨inFlight, h.kept ht.1.1 rfl rfl rfl⟩
  | arrivePiece last length broadcast bytes =>
    simp only [Action.exec, wp_bind, wp_onPart, wp_modify, wp_get]
    apply wp_partial (gmacReceiveDone_sane hsane hallowed.1)
    intro _ t ht
    exact ⟨inFlight, h.kept ht.1.1 rfl rfl rfl⟩
  | transmit => exact transmit_transmitting h hallowed

variable {application : Application} {time : Time} {entropy : Nat → UInt32}

theorem ready_transmitting : Transmitting (Adapter.ready application time entropy) [] where
  ring := ⟨by simp, by simp, fun _ _ _ => booted_ready.tx _⟩
  index := booted_ready.txIndex.trans (slot_zero _).symm
  history := rfl

theorem reaches_transmitting (h : Reaches Action.exec Action.Allowed (Adapter.ready application time entropy) a) :
    Sane a ∧ ∃ inFlight, Transmitting a inFlight := by
  apply h.invariant (I := fun a => Sane a ∧ ∃ inFlight, Transmitting a inFlight)
  · exact ⟨ready_sane, [], ready_transmitting⟩
  · intro a action _ ha hallowed
    obtain ⟨hsane, inFlight, htransmitting⟩ := ha
    exact wp_partial (wp_and (exec_sane hsane hallowed) (exec_transmitting hsane htransmitting hallowed))
      fun _ _ hb => hb

/-- What is sent has been accepted before, in this order; nothing is lost between; a packet is dropped
only when the ring is full; and the packet of a descriptor of the hardware is nowhere else. -/
theorem transmit_ring_safe
    (h : Reaches Action.exec Action.Allowed (Adapter.ready application time entropy) a) :
    a.sent <+: a.accepted ∧
      ((∀ i, (a.stack.gmac.txDescriptors i).owner = .cpu) → a.sent = a.accepted) ∧
      ((∃ i, (a.stack.gmac.txDescriptors i).owner = .gmac) →
        (a.stack.gmac.txDescriptors a.txPosition).owner = .gmac) ∧
      (∀ p ∈ a.held, wp (gmacSend p)
        (fun _ t => p ∈ t.freeNetworkPackets → ∀ i, (a.stack.gmac.txDescriptors i).owner = .gmac)
        (fun _ _ => False) a.stack) ∧
      ∀ i, (a.stack.gmac.txDescriptors i).owner = .gmac → ∃ p offset,
        (a.stack.gmac.txDescriptors i).address = some (p, offset) ∧ a.stack.gmac.txPackets i = some p ∧
          p ∉ a.stack.freeNetworkPackets ∧ (∀ j, j ≠ i → a.stack.gmac.txPackets j ≠ some p) ∧
          ∀ j, a.stack.gmac.rxPackets j ≠ some p := by
  obtain ⟨hsane, inFlight, ha⟩ := reaches_transmitting h
  constructor
  · exact ⟨inFlight, ha.history.symm⟩
  constructor
  · intro hidle
    cases inFlight with
    | nil => rw [ha.history, List.append_nil]
    | cons item rest =>
      have hhead := ha.ring.head.owner
      rw [hidle] at hhead
      cases hhead
  constructor
  · rintro ⟨i, hi⟩
    cases inFlight with
    | nil =>
      rcases ha.ring.cases i with ⟨item, hmem, _⟩ | hvacant
      · cases hmem
      · rw [Vacant, hi] at hvacant
        cases hvacant
    | cons item rest => exact ha.ring.head.owner
  constructor
  · intro p hp
    apply wp_next (gmacSend_sane hsane hp)
    intro _ t ht hfreed
    obtain ⟨⟨_, hhanded⟩, hsound⟩ := ht
    cases hhanded with
    | dropped owner kept freed => exact ha.full owner
    | linked owner packets descriptors index content errors =>
      have hslot : t.gmac.txPackets a.stack.gmac.txIndex = some p := by
        rw [packets, Function.update_self]
      exact absurd hfreed (hsound.owned.tx_apart hslot).1
  · intro i hi
    rcases ha.ring.cases i with ⟨item, _, hitem⟩ | hvacant
    · obtain ⟨offset, haddress⟩ := hitem.address
      obtain ⟨hfree, _, htx, hrx⟩ := hsane.sound.owned.tx_apart hitem.slot
      exact ⟨item.1, offset, haddress, hitem.slot, hfree, htx, hrx⟩
    · rw [Vacant, hi] at hvacant
      cases hvacant

/-- Three packets are accepted, and two of them have been sent. -/
theorem transmit_ring_safe_three :
    ∃ a, Reaches Action.exec Action.Allowed (Adapter.ready zeroApplication 0 fun _ => 0) a ∧
      a.accepted.length = 3 ∧ a.sent.length = 2 ∧ a.sent <+: a.accepted := by
  have hrun : runs Action.exec (fun a action => decide (action.Allowed a))
      (fun a => a.accepted.length = 3 ∧ a.sent.length = 2)
      [.allocate, .send 55, .allocate, .send 95, .allocate, .send 94, .transmit, .transmit]
      (Adapter.ready zeroApplication 0 fun _ => 0) = true := by
    decide +kernel
  obtain ⟨a, hreach, hcheck⟩ := reaches_of_runs Action.Allowed .start
    (fun _ _ _ hguard => of_decide_eq_true hguard) hrun
  obtain ⟨haccepted, hsent⟩ := of_decide_eq_true hcheck
  exact ⟨a, hreach, haccepted, hsent, (transmit_ring_safe hreach).1⟩

end MiniIp.Guarantees.TransmitRing
