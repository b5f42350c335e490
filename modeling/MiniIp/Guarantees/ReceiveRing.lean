import MiniIp.Invariant.Adapter

/-!
# The receive ring

`gmac_receive` (gmac.c:257-287) advances `rx_index` over a frame that it returns. Over a piece of a
frame that is larger than a buffer it does not: it gives the descriptor back to the hardware and stays
where it is. The descriptor is then the hardware's, and everything behind it has to wait until the
hardware has come round. As long as no call finds such a piece, the frames are
returned in the order in which they have arrived.
-/

set_option autoImplicit false

namespace MiniIp.Guarantees.ReceiveRing

open MiniIp.Source MiniIp.Invariant MiniIp.Library.Ring MiniIp.Library.Runs MiniIp.Library.Wp

/-- The driver finds this in slot `i`: a whole frame, or a piece of one. -/
structure Waiting (s : Stack) (i : Fin 32) (item : Option Frame) : Prop where
  owner : (s.gmac.rxDescriptors i).owner = .cpu
  piece : item = none ↔ Piece (s.gmac.rxDescriptors i)
  content : ∀ frame, item = some frame → ∃ p, s.gmac.rxPackets i = some p ∧
    frame = ⟨readBytes (s.packets p).data 0 (s.gmac.rxDescriptors i).length,
      (s.gmac.rxDescriptors i).broadcastDetected⟩

def Vacant (s : Stack) (i : Fin 32) : Prop := (s.gmac.rxDescriptors i).owner = .gmac

/-- `waiting` is what lies between the hardware and the caller. -/
structure Receiving (a : Adapter) (waiting : List (Option Frame)) : Prop where
  ring : Carries (Waiting a.stack) (Vacant a.stack) a.stack.gmac.rxIndex waiting
  position : a.rxPosition = slot a.stack.gmac.rxIndex waiting.length
  history : a.arrived = a.returned ++ waiting.filterMap id

/-- No call of `gmac_receive` finds a piece of a larger frame. -/
def WholeFrames (a : Adapter) (action : Action) : Prop :=
  action.Allowed a ∧ (action = .receive →
    (a.stack.gmac.rxDescriptors a.stack.gmac.rxIndex).owner = .cpu →
      ¬ Piece (a.stack.gmac.rxDescriptors a.stack.gmac.rxIndex))

variable {a b : Adapter} {s t : Stack} {i : Fin 32} {item : Option Frame} {waiting : List (Option Frame)}
  {p : PacketId}

theorem Waiting.kept (h : Waiting s i item)
    (hdescriptor : t.gmac.rxDescriptors i = s.gmac.rxDescriptors i)
    (hslot : t.gmac.rxPackets i = s.gmac.rxPackets i)
    (hcontent : ∀ p, s.gmac.rxPackets i = some p → (t.packets p).data = (s.packets p).data) :
    Waiting t i item := by
  constructor
  · rw [hdescriptor]
    exact h.owner
  · rw [hdescriptor]
    exact h.piece
  · intro frame hitem
    obtain ⟨p, hp, hframe⟩ := h.content frame hitem
    refine ⟨p, hslot.trans hp, ?_⟩
    rw [hcontent p hp, hdescriptor]
    exact hframe

/-- What leaves the ring alone leaves everything that waits as it is. -/
theorem Receiving.kept (h : Receiving a waiting) (hkept : RxKept a.stack b.stack)
    (hposition : b.rxPosition = a.rxPosition) (harrived : b.arrived = a.arrived)
    (hreturned : b.returned = a.returned) : Receiving b waiting := by
  constructor
  · rw [hkept.index]
    apply h.ring.mono
    · intro i item hitem
      apply hitem.kept
      · rw [hkept.descriptors]
      · rw [hkept.packets]
      · intro p hp
        rw [hkept.content i p hp]
    · intro i hi
      unfold Vacant
      rw [hkept.descriptors]
      exact hi
  · rw [hkept.index, hposition]
    exact h.position
  · rw [harrived, hreturned]
    exact h.history

/-- The hardware finds its descriptor free only where the ring is not full. -/
theorem Receiving.room (h : Receiving a waiting)
    (howner : (a.stack.gmac.rxDescriptors a.rxPosition).owner = .gmac) : waiting.length < 32 := by
  by_contra hfull
  have hround := h.ring.full (by omega)
  cases waiting with
  | nil => exact hfull (by simp)
  | cons item rest =>
    have hhead := h.ring.head.owner
    rw [← hround, ← h.position, howner] at hhead
    cases hhead

theorem readBytes_congr {memory memory' : Memory} {start : Int} {size : ℕ}
    (h : ∀ k, start ≤ k → k < start + size → memory k = memory' k) :
    readBytes memory start size = readBytes memory' start size := by
  induction size generalizing start with
  | zero => rfl
  | succ size ih =>
    simp only [readBytes]
    rw [h start (le_refl _) (by omega), ih fun k hk hlt => h k (by omega) (by omega)]

/-- The hardware fills the next descriptor. -/
theorem filled_receiving {status : RxStatus} {bytes : Memory} (hsane : Sane a) (h : Receiving a waiting)
    (howner : (a.stack.gmac.rxDescriptors a.rxPosition).owner = .gmac)
    (hfilled : Filled a.stack t a.rxPosition status bytes p)
    (hpiece : item = none ↔ (status.startOfFrame = false ∨ status.endOfFrame = false))
    (hframe : ∀ frame, item = some frame →
      frame = ⟨readBytes bytes 0 status.length, status.broadcastDetected⟩) :
    Carries (Waiting t) (Vacant t) t.gmac.rxIndex (waiting ++ [item]) := by
  rw [hfilled.index]
  apply h.ring.push (h.room howner)
  · rw [← h.position]
    constructor
    · simp [hfilled.descriptors]
    · rw [hpiece]
      simp [Piece, hfilled.descriptors]
    · intro frame hitem
      refine ⟨p, ?_, ?_⟩
      · rw [hfilled.packets]
        exact hfilled.slot
      · rw [hframe frame hitem]
        simp only [hfilled.descriptors, hfilled.content, Function.update_self]
        congr 1
        apply readBytes_congr
        intro k hk hlt
        have hsize := status.length.isLt
        rw [if_pos ⟨hk, by omega⟩]
  · intro i item hi hitem
    rw [← h.position] at hi
    apply hitem.kept
    · simp [hfilled.descriptors, Function.update_of_ne hi]
    · rw [hfilled.packets]
    · intro q hq
      have hne : q ≠ p := by
        rintro rfl
        exact hi (hsane.sound.owned.rx_single hq hfilled.slot)
      simp [hfilled.content, Function.update_of_ne hne]
  · intro i hi hvacant
    rw [← h.position] at hi
    simpa [Vacant, hfilled.descriptors, Function.update_of_ne hi] using hvacant

/-- The driver empties the slot at `rx_index`. -/
theorem emptied_receiving (h : Receiving a (item :: waiting)) (hemptied : Emptied a.stack t p)
    (hwhole : ¬ Piece (a.stack.gmac.rxDescriptors a.stack.gmac.rxIndex)) :
    Carries (Waiting t) (Vacant t) t.gmac.rxIndex waiting ∧
      item = some ⟨(t.packets p).payload, (t.packets p).broadcast⟩ := by
  constructor
  · rw [hemptied.index]
    apply h.ring.pop
    · simp [Vacant, hemptied.descriptors]
    · intro i item hi hitem
      apply hitem.kept
      · simp [hemptied.descriptors, Function.update_of_ne hi]
      · exact hemptied.packets i hi
      · intro q hq
        rw [hemptied.contents i q hi hq]
    · intro i hi hvacant
      simpa [Vacant, hemptied.descriptors, Function.update_of_ne hi] using hvacant
  · have hhead := h.ring.head
    cases item with
    | none => exact absurd (hhead.piece.mp rfl) hwhole
    | some frame =>
      obtain ⟨q, hq, hframe⟩ := hhead.content frame rfl
      have hqp : p = q := Option.some.inj (hemptied.slot.symm.trans hq)
      rw [hframe, ← hqp, hemptied.content]
      simp [NetworkPacket.payload]

/-- What a call does that finds no piece: nothing, or it returns the first frame that waits. -/
structure Returned (a b : Adapter) (frame : Frame) (rest : List (Option Frame)) : Prop where
  receiving : Receiving b rest
  returned : b.returned = a.returned ++ [frame]
  pool : b.stack.freeNetworkPackets.length + 1 = a.stack.freeNetworkPackets.length

theorem receiveCall_receiving (hsane : Sane a) (h : Receiving a waiting)
    (hwhole : (a.stack.gmac.rxDescriptors a.stack.gmac.rxIndex).owner = .cpu →
      ¬ Piece (a.stack.gmac.rxDescriptors a.stack.gmac.rxIndex)) :
    wp receiveCall
      (fun _ b => Sane b ∧ ((waiting = [] ∧ b = a) ∨
        ∃ frame rest, waiting = some frame :: rest ∧ Returned a b frame rest))
      (fun e _ => e = .poolEmpty ∧ a.stack.freeNetworkPackets = []) a := by
  simp only [receiveCall, wp_bind, wp_onPart]
  apply wp_next (gmacReceive_sane hsane)
  intro received t ht
  obtain ⟨⟨hkept, hreceives⟩, hsound⟩ := ht
  have herrors : transmitErrors t.gmac.tsr = false := hkept.errors ▸ hsane.errors
  cases hreceives with
  | nothing owner =>
    cases waiting with
    | nil => exact ⟨hsane, .inl ⟨rfl, rfl⟩⟩
    | cons item rest =>
      have hhead := h.ring.head.owner
      rw [owner] at hhead
      cases hhead
  | discarded owner piece => exact absurd piece (hwhole owner)
  | returned owner whole emptied pool left =>
    cases waiting with
    | nil =>
      have hvacant := h.ring.empty
      rw [Vacant, owner] at hvacant
      cases hvacant
    | cons item rest =>
      obtain ⟨hring, hitem⟩ := emptied_receiving h emptied whole
      refine ⟨⟨hsound, herrors⟩, .inr ⟨_, rest, by rw [hitem], ⟨hring, ?_, ?_⟩, rfl, ?_⟩⟩
      · have hposition := h.position
        rw [List.length_cons, ← slot_succ, ← emptied.index] at hposition
        exact hposition
      · simp only [h.history, hitem, List.filterMap_cons, id_eq, List.append_assoc, List.singleton_append]
      · simp [pool, left]

theorem exec_receiving {action : Action} (hsane : Sane a) (h : Receiving a waiting)
    (hallowed : WholeFrames a action) :
    wp action.exec (fun _ b => ∃ rest, Receiving b rest) (fun _ _ => True) a := by
  obtain ⟨hallowed, hwhole⟩ := hallowed
  cases action with
  | allocate =>
    simp only [Action.exec, wp_bind, wp_onPart, wp_modify]
    apply wp_partial (allocateNetworkPacket_sane hsane)
    intro _ t ht
    exact ⟨waiting, h.kept ht.1.2 rfl rfl rfl⟩
  | write p content =>
    exact ⟨waiting, h.kept (rxKept_write (hsane.sound.owned.held_not_rx hallowed) content) rfl rfl rfl⟩
  | free p => exact ⟨waiting, h.kept ⟨rfl, rfl, rfl, fun _ _ _ => rfl⟩ rfl rfl rfl⟩
  | send p =>
    simp only [Action.exec, wp_bind, wp_onPart, wp_modify, wp_get]
    apply wp_partial (gmacSend_sane hsane hallowed)
    intro _ t ht
    exact ⟨waiting, h.kept ht.1.1 rfl rfl rfl⟩
  | receive =>
    apply wp_partial (receiveCall_receiving hsane h (hwhole rfl))
    intro _ b hb
    rcases hb.2 with ⟨_, rfl⟩ | ⟨_, rest, _, hreturned⟩
    · exact ⟨waiting, h⟩
    · exact ⟨rest, hreturned.receiving⟩
  | arrive length broadcast bytes =>
    simp only [Action.exec, wp_bind, wp_onPart, wp_modify, wp_get]
    apply wp_partial (gmacReceiveDone_sane hsane hallowed.1)
    intro _ t ht
    obtain ⟨⟨_, p, hfilled⟩, _⟩ := ht
    refine ⟨waiting ++ [some ⟨readBytes bytes 0 length, broadcast⟩], ?_, ?_, ?_⟩
    · apply filled_receiving hsane h hallowed.1 hfilled
      · simp
      · intro frame hframe
        exact (Option.some.inj hframe).symm
    · simp only [h.position, List.length_append, List.length_singleton, hfilled.index, slot_next]
    · simp [h.history]
  | arrivePiece last length broadcast bytes =>
    simp only [Action.exec, wp_bind, wp_onPart, wp_modify, wp_get]
    apply wp_partial (gmacReceiveDone_sane hsane hallowed.1)
    intro _ t ht
    obtain ⟨⟨_, p, hfilled⟩, _⟩ := ht
    refine ⟨waiting ++ [none], ?_, ?_, ?_⟩
    · apply filled_receiving hsane h hallowed.1 hfilled
      · have hlast := hallowed.2
        cases hsplit : a.split with
        | false => simp [hlast hsplit]
        | true => simp
      · simp
    · simp only [h.position, List.length_append, List.length_singleton, hfilled.index, slot_next]
    · simp [h.history]
  | transmit => exact ⟨waiting, h.kept ⟨rfl, rfl, rfl, fun _ _ _ => rfl⟩ rfl rfl rfl⟩

def receiveCalls : ℕ → EStateM Halt Adapter Unit
  | 0 => pure ()
  | n + 1 => do
    receiveCall
    receiveCalls n

/-- As many calls as whole frames wait first return them all. -/
theorem receiveCalls_returns {frames : List Frame} {rest : List (Option Frame)} (hsane : Sane a)
    (h : Receiving a (frames.map some ++ rest))
    (hpool : frames.length ≤ a.stack.freeNetworkPackets.length) :
    wp (receiveCalls frames.length) (fun _ b => b.returned = a.returned ++ frames) (fun _ _ => False) a := by
  induction frames generalizing a with
  | nil => simp [receiveCalls]
  | cons frame frames ih =>
    have hhead : Waiting a.stack a.stack.gmac.rxIndex (some frame) := h.ring.head
    have hwhole : ¬ Piece (a.stack.gmac.rxDescriptors a.stack.gmac.rxIndex) := by
      rw [← hhead.piece]
      simp
    simp only [List.length_cons] at hpool
    simp only [List.length_cons, receiveCalls, wp_bind]
    apply wp_mono (receiveCall_receiving hsane h fun _ => hwhole)
    · intro _ b hb
      obtain ⟨hsane', ⟨hnil, _⟩ | ⟨first, others, hcons, hreturned⟩⟩ := hb
      · cases hnil
      · obtain ⟨hfirst, rfl⟩ := List.cons_eq_cons.mp hcons
        have hpool' := hreturned.pool
        apply wp_next (ih hsane' hreturned.receiving (by omega))
        intro _ c hc
        rw [hc, hreturned.returned, ← Option.some.inj hfirst, List.append_assoc, List.singleton_append]
    · rintro _ _ ⟨_, hempty⟩
      rw [hempty] at hpool
      simp at hpool

variable {application : Application} {time : Time} {entropy : Nat → UInt32}

theorem ready_receiving : Receiving (Adapter.ready application time entropy) [] where
  ring := ⟨by simp, by simp, fun _ _ _ => booted_ready.rx _⟩
  position := (booted_ready.rxIndex.symm).trans (slot_zero _).symm
  history := rfl

theorem reaches_receiving (h : Reaches Action.exec WholeFrames (Adapter.ready application time entropy) a) :
    Sane a ∧ ∃ waiting, Receiving a waiting := by
  apply h.invariant (I := fun a => Sane a ∧ ∃ waiting, Receiving a waiting)
  · exact ⟨ready_sane, [], ready_receiving⟩
  · intro a action _ ha hallowed
    obtain ⟨hsane, waiting, hreceiving⟩ := ha
    exact wp_partial (wp_and (exec_sane hsane hallowed.1) (exec_receiving hsane hreceiving hallowed))
      fun _ _ hb => hb

/-- Where the first descriptors hold no piece, whole frames wait in them. -/
theorem Receiving.frames {n : ℕ} (h : Receiving a waiting) (hn : n ≤ waiting.length)
    (hwhole : ∀ k < n, ¬ Piece (a.stack.gmac.rxDescriptors (slot a.stack.gmac.rxIndex k))) :
    ∃ frames : List Frame, frames.length = n ∧ waiting = frames.map some ++ waiting.drop n := by
  induction n with
  | zero => exact ⟨[], rfl, rfl⟩
  | succ n ih =>
    obtain ⟨frames, hlength, hwaiting⟩ := ih (by omega) fun k hk => hwhole k (by omega)
    have hitem := h.ring.items n _ (List.getElem?_eq_getElem (by omega))
    cases hcase : waiting[n] with
    | none => exact absurd (hitem.piece.mp hcase) (hwhole n (by omega))
    | some frame =>
      refine ⟨frames ++ [frame], by simp [hlength], ?_⟩
      have hdrop : waiting.drop n = some frame :: waiting.drop (n + 1) := by
        rw [List.drop_eq_getElem_cons (by omega), hcase]
      rw [List.map_append, List.append_assoc, List.map_singleton, List.singleton_append, ← hdrop]
      exact hwaiting

/-- Where no call finds a piece of a larger frame, the frames are returned in the order in which they
have arrived, and those that wait with no piece ahead are returned without the hardware. -/
theorem receive_ring_in_order
    (h : Reaches Action.exec WholeFrames (Adapter.ready application time entropy) a) :
    a.returned <+: a.arrived ∧
      ∀ n, a.returned.length + n ≤ a.arrived.length →
        (∀ k < n, ¬ Piece (a.stack.gmac.rxDescriptors (slot a.stack.gmac.rxIndex k))) →
        n ≤ a.stack.freeNetworkPackets.length →
        wp (receiveCalls n) (fun _ b => b.returned = a.arrived.take (a.returned.length + n))
          (fun _ _ => False) a := by
  obtain ⟨hsane, waiting, ha⟩ := reaches_receiving h
  have hhistory := ha.history
  constructor
  · exact ⟨_, hhistory.symm⟩
  · intro n hn hwhole hpool
    have hfew : n ≤ waiting.length := by
      have hwhole := List.length_filterMap_le id waiting
      rw [hhistory, List.length_append] at hn
      omega
    obtain ⟨frames, rfl, hwaiting⟩ := ha.frames hfew hwhole
    rw [hwaiting] at ha
    apply wp_next (receiveCalls_returns hsane ha hpool)
    intro _ b hb
    rw [hb, ha.history]
    simp [List.take_append]

/-- Two frames arrive, and one is returned. -/
theorem receive_ring_in_order_two :
    ∃ a, Reaches Action.exec WholeFrames (Adapter.ready zeroApplication 0 fun _ => 0) a ∧
      a.arrived.length = 2 ∧ a.returned.length = 1 ∧ a.returned <+: a.arrived := by
  have hrun : runs Action.exec
      (fun a action => decide (action.Allowed a ∧
        (a.stack.gmac.rxDescriptors a.stack.gmac.rxIndex).startOfFrame = true ∧
        (a.stack.gmac.rxDescriptors a.stack.gmac.rxIndex).endOfFrame = true ∨
          action.Allowed a ∧ (a.stack.gmac.rxDescriptors a.stack.gmac.rxIndex).owner = .gmac))
      (fun a => a.arrived.length = 2 ∧ a.returned.length = 1)
      [.arrive 60 false fun _ => 1, .arrive 60 false fun _ => 2, .receive]
      (Adapter.ready zeroApplication 0 fun _ => 0) = true := by
    decide +kernel
  obtain ⟨a, hreach, hcheck⟩ := reaches_of_runs WholeFrames .start (fun _ _ _ hguard => by
    rcases of_decide_eq_true hguard with ⟨hallowed, hstart, hend⟩ | ⟨hallowed, howner⟩
    · exact ⟨hallowed, fun _ _ hpiece => by simp [Piece, hstart, hend] at hpiece⟩
    · exact ⟨hallowed, fun _ hcpu => by simp [howner] at hcpu⟩) hrun
  obtain ⟨harrived, hreturned⟩ := of_decide_eq_true hcheck
  exact ⟨a, hreach, harrived, hreturned, (receive_ring_in_order hreach).1⟩

/-- Calls that find the descriptor of the hardware return nothing. -/
theorem receiveCalls_stall (hidle : (a.stack.gmac.rxDescriptors a.stack.gmac.rxIndex).owner = .gmac) (n : ℕ) :
    wp (receiveCalls n) (fun _ b => b = a) (fun _ _ => False) a := by
  induction n with
  | zero => exact rfl
  | succ n ih =>
    simp only [receiveCalls, receiveCall, gmacReceive, wp_bind, wp_onPart, wp_get, wp_ite, if_pos hidle, wp_pure]
    exact ih

/-- A frame of two pieces, and a whole one behind it: one call discards the first piece, and no later
call returns the whole frame. -/
theorem split_frame_stalls :
    ∃ a, Reaches Action.exec Action.Allowed (Adapter.ready zeroApplication 0 fun _ => 0) a ∧
      a.arrived.length = 1 ∧ a.stack.freeNetworkPackets.length = 56 ∧
      ∀ n, wp (receiveCalls n) (fun _ b => b.returned = []) (fun _ _ => False) a := by
  have hrun : runs Action.exec (fun a action => decide (action.Allowed a))
      (fun a => (a.arrived.length = 1 ∧ a.stack.freeNetworkPackets.length = 56) ∧ a.returned = [] ∧
        (a.stack.gmac.rxDescriptors a.stack.gmac.rxIndex).owner = .gmac)
      [.arrivePiece false 1024 false fun _ => 0, .arrivePiece true 476 false fun _ => 0,
        .arrive 60 false fun _ => 0, .receive]
      (Adapter.ready zeroApplication 0 fun _ => 0) = true := by
    decide +kernel
  obtain ⟨a, hreach, hcheck⟩ := reaches_of_runs Action.Allowed .start
    (fun _ _ _ hguard => of_decide_eq_true hguard) hrun
  obtain ⟨⟨harrived, hpool⟩, hreturned, hidle⟩ := of_decide_eq_true hcheck
  refine ⟨a, hreach, harrived, hpool, fun n => ?_⟩
  apply wp_next (receiveCalls_stall hidle n)
  intro _ b hb
  rw [hb, hreturned]

end MiniIp.Guarantees.ReceiveRing
