import MiniIp.Invariant.SoundRun
import MiniIp.Library.Ring

/-!
# The driver between its caller and the hardware

Everything that happens at the two descriptor rings once `gmac_init` has run: the caller calls
`gmac_send` and `gmac_receive`, and allocates, writes and frees the packets it holds; the
hardware works round each ring from a position of its own, as far as the descriptors
are its own.
-/

set_option autoImplicit false

namespace MiniIp.Invariant

open MiniIp.Source MiniIp.Library.Counting MiniIp.Library.Ring MiniIp.Library.Runs MiniIp.Library.Wp

/-- A frame as it is received. -/
structure Frame where
  bytes : List UInt8
  broadcast : Bool
  deriving DecidableEq

structure Adapter where
  stack : Stack
  /-- The packets in the hands of the caller. -/
  held : List PacketId
  /-- The descriptor that the hardware fills next, and whether it is in the middle of a frame. -/
  rxPosition : Fin 32
  split : Bool
  /-- The frames that have come in one descriptor each, and those that `gmac_receive` has returned. -/
  arrived : List Frame
  returned : List Frame
  /-- The descriptor that the hardware sends next. -/
  txPosition : Fin 8
  /-- The packets that `gmac_send` has taken, with what they contained, and the frames that have been
  sent, with the packets they were read from. -/
  accepted : List (PacketId × List UInt8)
  sent : List (PacketId × List UInt8)

/-- What the hardware reads where a descriptor points to. -/
def transmitted (s : Stack) (i : Fin 8) : Option (PacketId × List UInt8) :=
  (s.gmac.txDescriptors i).address.map fun address =>
    (address.1, readBytes (s.packets address.1).data address.2 (s.gmac.txDescriptors i).length.toNat)

inductive Action where
  | allocate
  | write (packet : PacketId) (content : NetworkPacket)
  | free (packet : PacketId)
  | send (packet : PacketId)
  | receive
  /-- A frame fills one descriptor. -/
  | arrive (length : Fin 1025) (broadcast : Bool) (bytes : Memory)
  /-- A piece of a frame that is larger than a buffer fills one descriptor. -/
  | arrivePiece (last : Bool) (length : Fin 1025) (broadcast : Bool) (bytes : Memory)
  | transmit

abbrev Net.onStack {α : Type} (x : Net α) : EStateM Halt Adapter α :=
  onPart Adapter.stack (fun s a => { a with stack := s }) x

def receiveCall : EStateM Halt Adapter Unit := do
  match (← Net.onStack gmacReceive) with
  | none => pure ()
  | some packet => modify fun a => { a with
      held := packet :: a.held
      returned := a.returned ++ [⟨(a.stack.packets packet).payload, (a.stack.packets packet).broadcast⟩] }

def Action.exec : Action → EStateM Halt Adapter Unit
  | allocate => do
    let packet ← Net.onStack allocateNetworkPacket
    modify fun a => { a with held := packet :: a.held }
  | write packet content => Net.onStack (modify fun s => s.write packet content)
  | free packet => do
    Net.onStack (freeNetworkPacket packet)
    modify fun a => { a with held := a.held.erase packet }
  | send packet => do
    let frame := ((← get).stack.packets packet).payload
    Net.onStack (gmacSend packet)
    modify fun a => { a with
      held := a.held.erase packet
      -- a packet that is dropped lies in the pool afterwards
      accepted := if packet ∈ a.stack.freeNetworkPackets then a.accepted else a.accepted ++ [(packet, frame)] }
  | receive => receiveCall
  | arrive length broadcast bytes => do
    Net.onStack (gmacReceiveDone (← get).rxPosition ⟨true, true, length, broadcast⟩ bytes)
    modify fun a => { a with
      rxPosition := a.rxPosition + 1
      arrived := a.arrived ++ [⟨readBytes bytes 0 length, broadcast⟩] }
  | arrivePiece last length broadcast bytes => do
    Net.onStack (gmacReceiveDone (← get).rxPosition ⟨!(← get).split, last, length, broadcast⟩ bytes)
    modify fun a => { a with rxPosition := a.rxPosition + 1, split := !last }
  | transmit => do
    modify fun a => { a with sent := a.sent ++ (transmitted a.stack a.txPosition).toList }
    Net.onStack (gmacTransmitDone (← get).txPosition)
    modify fun a => { a with txPosition := a.txPosition + 1 }

/-- The caller uses what it holds, and the hardware the descriptors it owns. A frame that is split has
a first piece that is not the last one. -/
def Action.Allowed (a : Adapter) : Action → Prop
  | allocate | receive => True
  | write packet _ | free packet | send packet => packet ∈ a.held
  | arrive .. => (a.stack.gmac.rxDescriptors a.rxPosition).owner = .gmac ∧ a.split = false
  | arrivePiece last .. =>
    (a.stack.gmac.rxDescriptors a.rxPosition).owner = .gmac ∧ (a.split = false → last = false)
  | transmit => (a.stack.gmac.txDescriptors a.txPosition).owner = .gmac

instance (a : Adapter) : (action : Action) → Decidable (action.Allowed a)
  | .allocate | .receive => inferInstanceAs (Decidable True)
  | .write packet _ | .free packet | .send packet => inferInstanceAs (Decidable (packet ∈ a.held))
  | .arrive .. => inferInstanceAs (Decidable (_ ∧ _))
  | .arrivePiece .. => inferInstanceAs (Decidable (_ ∧ _))
  | .transmit => inferInstanceAs (Decidable (_ = _))

/-- The driver after `gmac_init`. -/
def Adapter.ready (application : Application) (time : Time) (entropy : Nat → UInt32) : Adapter where
  stack := booted application time entropy
  held := []
  rxPosition := 0
  split := false
  arrived := []
  returned := []
  txPosition := 0
  accepted := []
  sent := []

/-- The caller's packets, and what `gmac_send` and `gmac_receive` rely on. -/
structure Sane (a : Adapter) : Prop where
  sound : Sound False (fun _ _ _ _ => True) 0 a.held a.stack
  errors : transmitErrors a.stack.gmac.tsr = false

section Ownership

variable {held : List PacketId} {s t u : Stack} {p : PacketId}

/-- A packet in a slot of the transmit ring is nowhere else. -/
theorem Owned.tx_apart {i : Fin 8} (h : Owned held s) (hslot : s.gmac.txPackets i = some p) :
    p ∉ s.freeNetworkPackets ∧ p ∉ held ∧ (∀ j, j ≠ i → s.gmac.txPackets j ≠ some p) ∧
      ∀ j, s.gmac.rxPackets j ≠ some p := by
  have hone := h p
  have hmem := member_le_sum (fun j => if s.gmac.txPackets j = some p then 1 else 0) i
  simp only [hslot, if_true] at hmem
  simp only [occurrences, slots] at hone
  have hsingle : ∑ j, (if s.gmac.txPackets j = some p then 1 else 0) = 1 := by omega
  obtain ⟨k, _, hothers⟩ := exists_single_of_sum_eq_one _ hsingle
  have hki : k = i := by
    by_contra hne
    have hzero := hothers i (Ne.symm hne)
    simp [hslot] at hzero
  refine ⟨fun hfree => ?_, fun hheld => ?_, fun j hj heq => ?_, fun j heq => ?_⟩
  · have hpos := List.count_pos_iff.mpr hfree
    omega
  · have hpos := List.count_pos_iff.mpr hheld
    omega
  · have hzero := hothers j (hki ▸ hj)
    simp [heq] at hzero
  · have hmem' := member_le_sum (fun j => if s.gmac.rxPackets j = some p then 1 else 0) j
    simp only [heq, if_true] at hmem'
    omega

/-- A packet is in one slot of the receive ring at most. -/
theorem Owned.rx_single {i j : Fin 32} (h : Owned held s) (hi : s.gmac.rxPackets i = some p)
    (hj : s.gmac.rxPackets j = some p) : i = j := by
  have hone := h p
  have hmem := member_le_sum (fun j => if s.gmac.rxPackets j = some p then 1 else 0) i
  simp only [hi, if_true] at hmem
  simp only [occurrences, slots] at hone
  have hsingle : ∑ j, (if s.gmac.rxPackets j = some p then 1 else 0) = 1 := by omega
  obtain ⟨k, _, hothers⟩ := exists_single_of_sum_eq_one _ hsingle
  have hk : ∀ a, s.gmac.rxPackets a = some p → a = k := by
    intro a ha
    by_contra hne
    have hzero := hothers a hne
    simp [ha] at hzero
  rw [hk i hi, hk j hj]

/-- The order of the packets that are held does not matter. -/
theorem Owned.perm {held' : List PacketId} (h : Owned held s) (hperm : held.Perm held') : Owned held' s := by
  intro q
  rw [← hperm.count_eq]
  exact h q

theorem Sound.erase {W : Prop} {U : QueueContent} {limit : ℕ} (h : Sound W U limit held s) (hp : p ∈ held) :
    Sound W U limit (p :: held.erase p) s :=
  { h with owned := h.owned.perm (List.perm_cons_erase hp) }

/-- A step that leaves the transmit ring and the packets in it alone. -/
structure TxKept (s t : Stack) : Prop where
  descriptors : t.gmac.txDescriptors = s.gmac.txDescriptors
  packets : t.gmac.txPackets = s.gmac.txPackets
  index : t.gmac.txIndex = s.gmac.txIndex
  errors : t.gmac.tsr = s.gmac.tsr
  content : ∀ i p, s.gmac.txPackets i = some p → t.packets p = s.packets p

/-- A step that leaves the receive ring and the packets in it alone. -/
structure RxKept (s t : Stack) : Prop where
  descriptors : t.gmac.rxDescriptors = s.gmac.rxDescriptors
  packets : t.gmac.rxPackets = s.gmac.rxPackets
  index : t.gmac.rxIndex = s.gmac.rxIndex
  content : ∀ i p, s.gmac.rxPackets i = some p → t.packets p = s.packets p

theorem TxKept.trans (h : TxKept s t) (h' : TxKept t u) : TxKept s u where
  descriptors := h'.descriptors.trans h.descriptors
  packets := h'.packets.trans h.packets
  index := h'.index.trans h.index
  errors := h'.errors.trans h.errors
  content i p hp := (h'.content i p (h.packets ▸ hp)).trans (h.content i p hp)

theorem RxKept.trans (h : RxKept s t) (h' : RxKept t u) : RxKept s u where
  descriptors := h'.descriptors.trans h.descriptors
  packets := h'.packets.trans h.packets
  index := h'.index.trans h.index
  content i p hp := (h'.content i p (h.packets ▸ hp)).trans (h.content i p hp)

/-- A packet that is in neither ring is written. -/
theorem txKept_write (hp : ∀ i, s.gmac.txPackets i ≠ some p) (content : NetworkPacket) :
    TxKept s (s.write p content) := by
  constructor
  · rfl
  · rfl
  · rfl
  · rfl
  · intro i q hq
    have hne : q ≠ p := fun heq => hp i (heq ▸ hq)
    rw [Stack.write_packets, Function.update_of_ne hne]

theorem rxKept_write (hp : ∀ i, s.gmac.rxPackets i ≠ some p) (content : NetworkPacket) :
    RxKept s (s.write p content) := by
  constructor
  · rfl
  · rfl
  · rfl
  · intro i q hq
    have hne : q ≠ p := fun heq => hp i (heq ▸ hq)
    rw [Stack.write_packets, Function.update_of_ne hne]

theorem Owned.held_not_tx (h : Owned held s) (hp : p ∈ held) (i : Fin 8) : s.gmac.txPackets i ≠ some p :=
  fun hslot => (h.tx_apart hslot).2.1 hp

theorem Owned.held_not_rx (h : Owned held s) (hp : p ∈ held) (i : Fin 32) : s.gmac.rxPackets i ≠ some p :=
  fun hslot => (h.rx_not_queued hslot).2.2.2 hp

theorem Owned.free_not_tx (h : Owned held s) (hp : p ∈ s.freeNetworkPackets) (i : Fin 8) :
    s.gmac.txPackets i ≠ some p := fun hslot => (h.tx_apart hslot).1 hp

theorem Owned.free_not_rx (h : Owned held s) (hp : p ∈ s.freeNetworkPackets) (i : Fin 32) :
    s.gmac.rxPackets i ≠ some p := fun hslot => (h.rx_not_queued hslot).2.2.1 hp

/-- `allocate_network_packet` takes a packet that is in neither ring. -/
theorem allocateNetworkPacket_kept (h : Owned held s) :
    wp allocateNetworkPacket
      (fun p t => TxKept s t ∧ RxKept s t ∧ (∃ rest, s.freeNetworkPackets = p :: rest ∧
        t.freeNetworkPackets = rest) ∧ ∀ q, q ≠ p → t.packets q = s.packets q)
      (fun e _ => e = .poolEmpty ∧ s.freeNetworkPackets = []) s := by
  unfold allocateNetworkPacket
  simp only [wp_bind, wp_get]
  split
  · next hfree => exact ⟨rfl, hfree⟩
  · next p rest hfree =>
    simp only [wp_bind, wp_modify, wp_modifyPacket, wp_pure]
    have hmem : p ∈ s.freeNetworkPackets := by
      rw [hfree]
      exact List.mem_cons_self
    have htx : TxKept s (s.setPool rest) := ⟨rfl, rfl, rfl, rfl, fun _ _ _ => rfl⟩
    have hrx : RxKept s (s.setPool rest) := ⟨rfl, rfl, rfl, fun _ _ _ => rfl⟩
    have hnotx : ∀ i, (s.setPool rest).gmac.txPackets i ≠ some p := h.free_not_tx hmem
    have hnorx : ∀ i, (s.setPool rest).gmac.rxPackets i ≠ some p := h.free_not_rx hmem
    refine ⟨htx.trans (txKept_write hnotx _), hrx.trans (rxKept_write hnorx _), ⟨rest, hfree, rfl⟩,
      fun q hq => ?_⟩
    simp [Function.update_of_ne hq]

/-- What `gmac_send` can do with a packet: the ring is full and the packet is dropped, or it is linked
into the ring. -/
inductive HandsOver (s : Stack) (p : PacketId) (t : Stack) : Prop
  | dropped (owner : (s.gmac.txDescriptors s.gmac.txIndex).owner = .gmac) (kept : TxKept s t)
      (freed : p ∈ t.freeNetworkPackets)
  | linked (owner : (s.gmac.txDescriptors s.gmac.txIndex).owner = .cpu)
      (packets : t.gmac.txPackets = Function.update s.gmac.txPackets s.gmac.txIndex (some p))
      (descriptors : t.gmac.txDescriptors = Function.update s.gmac.txDescriptors s.gmac.txIndex
        ⟨.gmac, some (p, (s.packets p).index), (s.packets p).length⟩)
      (index : t.gmac.txIndex = s.gmac.txIndex + 1) (content : t.packets = s.packets)
      (errors : t.gmac.tsr = s.gmac.tsr)

theorem gmacSend_cases (h : Sound False (fun _ _ _ _ => True) 0 (p :: held) s)
    (herrors : transmitErrors s.gmac.tsr = false) :
    wp (gmacSend p) (fun _ t => RxKept s t ∧ HandsOver s p t)
      (fun _ _ => False) s := by
  unfold gmacSend
  simp only [wp_bind, wp_recordWindow, wp_getPacket, wp_emit, wp_get, wp_ite, Stack.observe_gmac, wp_throw,
    wp_freeNetworkPacket, herrors, Bool.false_eq_true, if_false]
  split
  · next howner =>
    exact ⟨⟨rfl, rfl, rfl, fun _ _ _ => rfl⟩,
      .dropped howner ⟨rfl, rfl, rfl, rfl, fun _ _ _ => rfl⟩ List.mem_cons_self⟩
  · next howner =>
    have hcpu : (s.gmac.txDescriptors s.gmac.txIndex).owner = .cpu := by
      cases hcase : (s.gmac.txDescriptors s.gmac.txIndex).owner with
      | cpu => rfl
      | gmac => exact absurd hcase howner
    split
    · next hnone => simpa [hnone] using h.txSlots s.gmac.txIndex
    · next old hold =>
      simp only [wp_bind, wp_freeNetworkPacket, wp_getPacket, wp_modify]
      exact ⟨⟨rfl, rfl, rfl, fun _ _ _ => rfl⟩, .linked hcpu rfl rfl rfl rfl rfl⟩

/-- The descriptor holds a piece of a frame that is larger than a buffer. -/
def Piece (d : RxDescriptor) : Prop := d.startOfFrame = false ∨ d.endOfFrame = false

/-- The slot at `rx_index` has been emptied into the caller's hands. -/
structure Emptied (s t : Stack) (p : PacketId) : Prop where
  slot : s.gmac.rxPackets s.gmac.rxIndex = some p
  content : t.packets p = { s.packets p with
    length := (s.gmac.rxDescriptors s.gmac.rxIndex).length.val
    index := 0
    broadcast := (s.gmac.rxDescriptors s.gmac.rxIndex).broadcastDetected }
  packets : ∀ i, i ≠ s.gmac.rxIndex → t.gmac.rxPackets i = s.gmac.rxPackets i
  contents : ∀ i q, i ≠ s.gmac.rxIndex → s.gmac.rxPackets i = some q → t.packets q = s.packets q
  descriptors : t.gmac.rxDescriptors = Function.update s.gmac.rxDescriptors s.gmac.rxIndex
    { s.gmac.rxDescriptors s.gmac.rxIndex with owner := .gmac }
  index : t.gmac.rxIndex = s.gmac.rxIndex + 1

/-- What a call of `gmac_receive` can do: it finds nothing, discards a piece, or returns the packet of a
whole frame. -/
inductive Receives (s : Stack) : Option PacketId → Stack → Prop
  | nothing (owner : (s.gmac.rxDescriptors s.gmac.rxIndex).owner = .gmac) : Receives s none s
  | discarded {t : Stack} (owner : (s.gmac.rxDescriptors s.gmac.rxIndex).owner = .cpu)
      (piece : Piece (s.gmac.rxDescriptors s.gmac.rxIndex)) : Receives s none t
  | returned {t : Stack} {p q : PacketId} {rest : List PacketId}
      (owner : (s.gmac.rxDescriptors s.gmac.rxIndex).owner = .cpu)
      (whole : ¬ Piece (s.gmac.rxDescriptors s.gmac.rxIndex)) (emptied : Emptied s t p)
      (pool : s.freeNetworkPackets = q :: rest) (left : t.freeNetworkPackets = rest) :
      Receives s (some p) t

theorem gmacReceive_cases (h : Owned held s) (hslots : ∀ i, (s.gmac.rxPackets i).isSome) :
    wp gmacReceive (fun received t => TxKept s t ∧ Receives s received t)
      (fun e _ => e = .poolEmpty ∧ s.freeNetworkPackets = []) s := by
  unfold gmacReceive
  simp only [wp_bind, wp_get, wp_ite, wp_pure, wp_modify]
  split
  · next howner => exact ⟨⟨rfl, rfl, rfl, rfl, fun _ _ _ => rfl⟩, .nothing howner⟩
  · next howner =>
    have hcpu : (s.gmac.rxDescriptors s.gmac.rxIndex).owner = .cpu := by
      cases hcase : (s.gmac.rxDescriptors s.gmac.rxIndex).owner with
      | cpu => rfl
      | gmac => exact absurd hcase howner
    split
    · next hpiece =>
      exact ⟨⟨rfl, rfl, rfl, rfl, fun _ _ _ => rfl⟩, .discarded hcpu hpiece⟩
    · next hwhole =>
      split
      · next hnone => simpa [hnone] using hslots s.gmac.rxIndex
      · next p hslot =>
        simp only [wp_bind, wp_modifyPacket]
        have hnotx : ∀ i, s.gmac.txPackets i ≠ some p := fun i hi => (h.tx_apart hi).2.2.2 _ hslot
        generalize hframe : ({ s.packets p with
          length := ((s.gmac.rxDescriptors s.gmac.rxIndex).length.val : Int), index := 0,
          broadcast := (s.gmac.rxDescriptors s.gmac.rxIndex).broadcastDetected } : NetworkPacket) = frame
        have hwritten : Owned held (s.write p frame) := h
        apply wp_next (allocateNetworkPacket_kept hwritten)
        intro q t hpost
        obtain ⟨htx, hrx, ⟨rest, hfree, hrest⟩, hothers⟩ := hpost
        have hmem : q ∈ (s.write p frame).freeNetworkPackets := by
          rw [hfree]
          exact List.mem_cons_self
        have hne : p ≠ q := by
          rintro rfl
          exact hwritten.free_not_rx hmem s.gmac.rxIndex hslot
        have hkept : TxKept s t := (txKept_write hnotx frame).trans htx
        refine ⟨⟨hkept.descriptors, hkept.packets, hkept.index, hkept.errors, hkept.content⟩,
          .returned hcpu hwhole ?_ hfree hrest⟩
        have hslots' : t.gmac.rxPackets = s.gmac.rxPackets := hrx.packets
        have hdescriptors : t.gmac.rxDescriptors = s.gmac.rxDescriptors := hrx.descriptors
        have hindex : t.gmac.rxIndex = s.gmac.rxIndex := hrx.index
        constructor
        · exact hslot
        · rw [hframe]
          simp [hothers p hne]
        · intro i hi
          simp [Function.update_of_ne hi, hslots']
        · intro i a hi ha
          have hap : a ≠ p := by
            rintro rfl
            exact hi (h.rx_single ha hslot)
          have haq : a ≠ q := by
            rintro rfl
            exact hwritten.free_not_rx hmem i ha
          simp [hothers a haq, Function.update_of_ne hap]
        · simp [hdescriptors]
        · simp [hindex]

/-- The hardware fills the buffer of a slot. -/
structure Filled (s t : Stack) (i : Fin 32) (status : RxStatus) (bytes : Memory) (p : PacketId) : Prop where
  slot : s.gmac.rxPackets i = some p
  content : t.packets = Function.update s.packets p { s.packets p with
    data := fun offset => if 0 ≤ offset ∧ offset < 1024 then bytes offset else (s.packets p).data offset }
  packets : t.gmac.rxPackets = s.gmac.rxPackets
  descriptors : t.gmac.rxDescriptors = Function.update s.gmac.rxDescriptors i
    ⟨.cpu, status.startOfFrame, status.endOfFrame, status.length, status.broadcastDetected⟩
  index : t.gmac.rxIndex = s.gmac.rxIndex

theorem gmacReceiveDone_cases {i : Fin 32} {status : RxStatus} {bytes : Memory} (h : Owned held s)
    (hslots : ∀ i, (s.gmac.rxPackets i).isSome) (howner : (s.gmac.rxDescriptors i).owner = .gmac) :
    wp (gmacReceiveDone i status bytes) (fun _ t => TxKept s t ∧ ∃ p, Filled s t i status bytes p)
      (fun _ _ => False) s := by
  unfold gmacReceiveDone
  simp only [wp_bind, wp_get, wp_ite, wp_pure, if_pos howner]
  split
  · next hnone => simpa [hnone] using hslots i
  · next p hslot =>
    simp only [wp_bind, wp_modifyPacket, wp_modify]
    have hnotx : ∀ j, s.gmac.txPackets j ≠ some p := fun j hj => (h.tx_apart hj).2.2.2 _ hslot
    have hkept := txKept_write hnotx { s.packets p with
      data := fun offset => if 0 ≤ offset ∧ offset < 1024 then bytes offset else (s.packets p).data offset }
    exact ⟨⟨hkept.descriptors, hkept.packets, hkept.index, hkept.errors, hkept.content⟩, p, hslot, rfl, rfl,
      rfl, rfl⟩

end Ownership

variable {a : Adapter}

/-- A specification of a call of the stack, with what the stack guarantees. -/
theorem Sane.call {α : Type} {x : Net α} {Q : α → Stack → Prop} {E : Halt → Stack → Prop}
    {R : α → List PacketId}
    (hx : wp x Q E a.stack)
    (hsound : wp x (fun r t => Sound False (fun _ _ _ _ => True) 0 (R r) t)
      (Stopped False (fun _ _ _ _ => True) 0 (a.held.length + 1)) a.stack) :
    wp x (fun r t => Q r t ∧ Sound False (fun _ _ _ _ => True) 0 (R r) t) E a.stack :=
  wp_mono (wp_and hx hsound) (fun _ _ h => h) fun _ _ h => h.1

theorem allocateNetworkPacket_sane (h : Sane a) :
    wp allocateNetworkPacket
      (fun p t => (TxKept a.stack t ∧ RxKept a.stack t) ∧
        Sound False (fun _ _ _ _ => True) 0 (p :: a.held) t)
      (fun e _ => e = .poolEmpty ∧ a.stack.freeNetworkPackets = []) a.stack := by
  apply Sane.call
  · apply wp_next (allocateNetworkPacket_kept h.sound.owned)
    intro _ t ht
    exact ⟨ht.1, ht.2.1⟩
  · apply wp_next (allocateNetworkPacket_sound h.sound (Nat.le_succ _))
    intro _ t ht
    exact ht.1

theorem gmacReceive_sane (h : Sane a) :
    wp gmacReceive
      (fun received t => (TxKept a.stack t ∧ Receives a.stack received t) ∧
        Sound False (fun _ _ _ _ => True) 0 (received.toList ++ a.held) t)
      (fun e _ => e = .poolEmpty ∧ a.stack.freeNetworkPackets = []) a.stack := by
  apply Sane.call
  · exact gmacReceive_cases h.sound.owned h.sound.rxSlots
  · apply wp_next (gmacReceive_sound h.sound (Nat.le_succ _))
    intro _ t ht
    exact ht.1

theorem gmacSend_sane (h : Sane a) {p : PacketId} (hp : p ∈ a.held) :
    wp (gmacSend p)
      (fun _ t => (RxKept a.stack t ∧ HandsOver a.stack p t) ∧
        Sound False (fun _ _ _ _ => True) 0 (a.held.erase p) t)
      (fun _ _ => False) a.stack := by
  apply Sane.call
  · exact gmacSend_cases (h.sound.erase hp) h.errors
  · exact gmacSend_sound (h.sound.erase hp) fun w => w.elim

theorem gmacReceiveDone_sane (h : Sane a) {i : Fin 32} {status : RxStatus} {bytes : Memory}
    (howner : (a.stack.gmac.rxDescriptors i).owner = .gmac) :
    wp (gmacReceiveDone i status bytes)
      (fun _ t => (TxKept a.stack t ∧ ∃ p, Filled a.stack t i status bytes p) ∧
        Sound False (fun _ _ _ _ => True) 0 a.held t)
      (fun _ _ => False) a.stack := by
  apply Sane.call
  · exact gmacReceiveDone_cases h.sound.owned h.sound.rxSlots howner
  · exact gmacReceiveDone_sound h.sound

theorem handsOver_errors {s t : Stack} {p : PacketId} (h : HandsOver s p t) : t.gmac.tsr = s.gmac.tsr := by
  cases h with
  | dropped _ kept _ => exact kept.errors
  | linked _ _ _ _ _ errors => exact errors

theorem exec_sane {action : Action} (h : Sane a) (hallowed : action.Allowed a) :
    wp action.exec (fun _ b => Sane b) (fun _ _ => True) a := by
  cases action with
  | allocate =>
    simp only [Action.exec, wp_bind, wp_onPart, wp_modify]
    apply wp_partial (allocateNetworkPacket_sane h)
    intro _ t ht
    exact ⟨ht.2, ht.1.1.errors ▸ h.errors⟩
  | write p content => exact ⟨h.sound.write hallowed content, h.errors⟩
  | free p => exact ⟨(h.sound.erase hallowed).freed, h.errors⟩
  | send p =>
    simp only [Action.exec, wp_bind, wp_onPart, wp_modify, wp_get]
    apply wp_partial (gmacSend_sane h hallowed)
    intro _ t ht
    exact ⟨ht.2, handsOver_errors ht.1.2 ▸ h.errors⟩
  | receive =>
    simp only [Action.exec, receiveCall, wp_bind, wp_onPart]
    apply wp_partial (gmacReceive_sane h)
    intro received t ht
    cases received with
    | none => exact ⟨ht.2, ht.1.1.errors ▸ h.errors⟩
    | some p => exact ⟨ht.2, ht.1.1.errors ▸ h.errors⟩
  | arrive length broadcast bytes =>
    simp only [Action.exec, wp_bind, wp_onPart, wp_modify, wp_get]
    apply wp_partial (gmacReceiveDone_sane h hallowed.1)
    intro _ t ht
    exact ⟨ht.2, ht.1.1.errors ▸ h.errors⟩
  | arrivePiece last length broadcast bytes =>
    simp only [Action.exec, wp_bind, wp_onPart, wp_modify, wp_get]
    apply wp_partial (gmacReceiveDone_sane h hallowed.1)
    intro _ t ht
    exact ⟨ht.2, ht.1.1.errors ▸ h.errors⟩
  | transmit => exact ⟨h.sound.congr rfl, h.errors⟩

variable {application : Application} {time : Time} {entropy : Nat → UInt32}

/-- The driver owns the transmit ring, the hardware the receive ring, and both start at slot 0. -/
structure RingsReady (g : Gmac) : Prop where
  tx : ∀ i, (g.txDescriptors i).owner = .cpu
  rx : ∀ i, (g.rxDescriptors i).owner = .gmac
  txIndex : g.txIndex = 0
  rxIndex : g.rxIndex = 0
  errors : transmitErrors g.tsr = false

theorem gmacInitTransmit_ready (slots : List (Fin 8)) (s : Stack) :
    wp (gmacInitTransmit slots)
      (fun _ t => (∀ i, i ∈ slots ∨ (s.gmac.txDescriptors i).owner = .cpu →
          (t.gmac.txDescriptors i).owner = .cpu) ∧
        t.gmac.rxDescriptors = s.gmac.rxDescriptors ∧ t.gmac.tsr = s.gmac.tsr)
      (fun _ _ => True) s := by
  induction slots generalizing s with
  | nil => exact ⟨fun i hi => by simpa using hi, rfl, rfl⟩
  | cons slot rest ih =>
    rw [gmacInitTransmit, wp_bind]
    unfold allocateNetworkPacket
    simp only [wp_bind, wp_get]
    split
    · trivial
    · simp only [wp_bind, wp_modify, wp_modifyPacket, wp_pure]
      apply wp_next (ih _)
      intro _ t ht
      obtain ⟨hcpu, hrx, htsr⟩ := ht
      refine ⟨fun i hi => hcpu i ?_, hrx, htsr⟩
      by_cases his : i = slot
      · right
        simp [his]
      · rcases hi with hmem | howner
        · exact .inl ((List.mem_cons.mp hmem).resolve_left his)
        · right
          simpa [Function.update_of_ne his] using howner

theorem gmacInitReceive_ready (slots : List (Fin 32)) (s : Stack) :
    wp (gmacInitReceive slots)
      (fun _ t => t.gmac.txDescriptors = s.gmac.txDescriptors ∧
        t.gmac.rxDescriptors = s.gmac.rxDescriptors ∧ t.gmac.tsr = s.gmac.tsr)
      (fun _ _ => True) s := by
  induction slots generalizing s with
  | nil => exact ⟨rfl, rfl, rfl⟩
  | cons slot rest ih =>
    rw [gmacInitReceive, wp_bind]
    unfold allocateNetworkPacket
    simp only [wp_bind, wp_get]
    split
    · trivial
    · simp only [wp_bind, wp_modify, wp_modifyPacket, wp_pure]
      exact ih _

theorem gmacInit_ready {s : Stack} (hrx : ∀ i, (s.gmac.rxDescriptors i).owner = .gmac)
    (herrors : transmitErrors s.gmac.tsr = false) :
    wp gmacInit (fun _ t => RingsReady t.gmac) (fun _ _ => True) s := by
  unfold gmacInit
  simp only [wp_bind, wp_modify]
  apply wp_next (gmacInitTransmit_ready _ _)
  intro _ t ht
  obtain ⟨hcpu, hrx', htsr⟩ := ht
  apply wp_next (gmacInitReceive_ready _ _)
  intro _ u hu
  obtain ⟨htx', hrx'', htsr'⟩ := hu
  constructor
  · intro i
    have hi := hcpu i (.inl (List.mem_finRange i))
    rw [← htx'] at hi
    exact hi
  · intro i
    have hi := hrx i
    rw [← hrx', ← hrx''] at hi
    exact hi
  · rfl
  · rfl
  · rw [← htsr, ← htsr'] at herrors
    exact herrors

theorem networkInit_gmac (s : Stack) : wp networkInit (fun _ t => t.gmac = s.gmac) (fun _ _ => True) s := by
  unfold networkInit arpInit udpInit
  simp only [wp_bind, wp_modify]

theorem booted_ready : RingsReady (booted application time entropy).gmac := by
  have hboot : wp boot (fun _ t => RingsReady t.gmac) (fun _ _ => True)
      (powerOn application time entropy) := by
    unfold boot
    rw [wp_bind]
    apply wp_next (networkInit_gmac _)
    intro _ t ht
    apply gmacInit_ready
    · intro i
      rw [ht]
      rfl
    · have hzero : transmitErrors 0 = false := by decide
      rw [ht]
      exact hzero
  exact wp_ok hboot (boot_returns application time entropy)

theorem ready_sane : Sane (Adapter.ready application time entropy) :=
  ⟨booted_sound, booted_ready.errors⟩

end MiniIp.Invariant
