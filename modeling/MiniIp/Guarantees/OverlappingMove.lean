import Mathlib.Algebra.Order.Group.Int
import MiniIp.Source.Utilities

/-!
# Overlapping moves

`memory_move` (utilities.h:67-85) copies from the front where the destination lies before the source and from the back
where it lies behind it, so neither loop reads a byte it has already written. The loop from the back starts at `size` and
not at `size - 1`: it copies one byte more.
-/

set_option autoImplicit false

namespace MiniIp.Guarantees.OverlappingMove

open MiniIp.Source

/-- The destination holds what the source has held, and no other byte has changed. -/
def Moved (source dest size : Int) (memory memory' : Memory) : Prop :=
  ∀ address, memory' address =
    if dest ≤ address ∧ address < dest + size then memory (source + (address - dest)) else memory address

variable {source dest size address : Int} {memory : Memory}

theorem writeByte_apply (value : UInt8) (pointer address : Int) (memory : Memory) :
    writeByte value pointer memory address = if address = pointer then value else memory address :=
  Function.update_apply memory pointer value address

/-- What is read next lies behind what has been written. -/
theorem moveForward_moved (memory : Memory) (h : dest < source) (size : ℕ) :
    Moved source dest size memory (moveForward size source dest memory) := by
  induction size generalizing source dest memory with
  | zero =>
    intro address
    rw [moveForward, if_neg (by omega)]
  | succ size ih =>
    intro address
    rw [moveForward, ih _ (by omega) address, writeByte_apply, writeByte_apply]
    by_cases hfirst : address = dest
    · rw [if_neg (by omega), if_pos hfirst, if_pos (by omega), hfirst, Int.sub_self, Int.add_zero]
    · have hsame : source + 1 + (address - (dest + 1)) = source + (address - dest) := by omega
      rw [if_neg hfirst, hsame]
      by_cases hinside : dest + 1 ≤ address ∧ address < dest + 1 + size
      · rw [if_pos hinside, if_neg (by omega), if_pos (by omega)]
      · rw [if_neg hinside, if_neg (by omega)]

/-- What is read next lies before what has been written. The loop ends with the byte 0, and it has begun with the byte
behind the source. -/
theorem moveBackward_moved (memory : Memory) (h : source < dest) (size : ℕ) :
    Moved source dest (size + 1) memory (moveBackward source dest size memory) := by
  induction size generalizing memory with
  | zero =>
    intro address
    rw [moveBackward, writeByte_apply]
    by_cases hfirst : address = dest
    · rw [if_pos hfirst, if_pos (by omega), hfirst, Int.sub_self, Int.add_zero]
    · rw [if_neg hfirst, if_neg (by omega)]
  | succ size ih =>
    intro address
    rw [moveBackward, ih _ address, writeByte_apply, writeByte_apply]
    by_cases hlast : address = dest + (size + 1 : ℕ)
    · have hread : source + (address - dest) = source + (size + 1 : ℕ) := by omega
      rw [if_neg (by omega), if_pos hlast, if_pos (by omega), hread]
    · rw [if_neg hlast]
      by_cases hinside : dest ≤ address ∧ address < dest + (size + 1)
      · rw [if_pos hinside, if_neg (by omega), if_pos (by omega)]
      · rw [if_neg hinside, if_neg (by omega)]

/-- One byte more is moved than asked for, and this one does not count where it is the byte that is there. -/
theorem moved_more_iff {memory' : Memory} (hsize : 0 ≤ size) (h : Moved source dest (size + 1) memory memory') :
    Moved source dest size memory memory' ↔ memory (source + size) = memory (dest + size) := by
  have hread : source + (dest + size - dest) = source + size := by omega
  constructor
  · intro hmoved
    have hmore := h (dest + size)
    have hless := hmoved (dest + size)
    rw [if_pos (by omega), hread] at hmore
    rw [if_neg (by omega)] at hless
    rw [← hmore, hless]
  · intro hequal address
    rw [h address]
    by_cases hlast : address = dest + size
    · rw [if_pos (by omega), if_neg (by omega), hlast, hread, hequal]
    · by_cases hinside : dest ≤ address ∧ address < dest + size
      · rw [if_pos (by omega), if_pos hinside]
      · rw [if_neg (by omega), if_neg hinside]

/-- `memory_move` moves exactly what it is asked to move where it copies from the front, and otherwise where the byte
behind the source is the byte behind the destination. -/
theorem memory_move_iff (hsize : 0 ≤ size) :
    Moved source dest size memory (memoryMove source dest size memory) ↔
      dest ≤ source ∨ memory (source + size) = memory (dest + size) := by
  have hnat : (size.toNat : Int) = size := Int.toNat_of_nonneg hsize
  unfold memoryMove
  rcases lt_trichotomy dest source with hbefore | hsame | hbehind
  · rw [if_neg (by omega), if_neg (by omega)]
    refine iff_of_true ?_ (.inl hbefore.le)
    have hmoved := moveForward_moved memory hbefore size.toNat
    rwa [hnat] at hmoved
  · rw [if_pos hsame]
    refine iff_of_true (fun address => ?_) (.inl hsame.le)
    have hread : source + (address - dest) = address := by omega
    rw [hread, ite_self]
  · rw [if_neg (by omega), if_pos hbehind, if_neg (by omega)]
    have hmoved := moveBackward_moved memory hbehind size.toNat
    rw [hnat] at hmoved
    rw [moved_more_iff hsize hmoved]
    exact ⟨.inr, fun h => h.resolve_left (by omega)⟩

/-- Two bytes to the front. -/
theorem memory_move_front :
    Moved 1 0 2 (fun address => UInt8.ofNat address.toNat)
      (memoryMove 1 0 2 fun address => UInt8.ofNat address.toNat) :=
  (memory_move_iff (by decide)).mpr (.inl (by decide))

/-- In the array 0, 1, 2 the byte 0 is moved one place to the back, and the last byte is overwritten too. -/
theorem memory_move_excess :
    memoryMove 0 1 1 (fun address => UInt8.ofNat address.toNat) 2 = 1 ∧
      ¬ Moved 0 1 1 (fun address => UInt8.ofNat address.toNat)
        (memoryMove 0 1 1 fun address => UInt8.ofNat address.toNat) := by
  have hbyte : memoryMove 0 1 1 (fun address => UInt8.ofNat address.toNat) 2 = 1 := by decide
  refine ⟨hbyte, fun h => ?_⟩
  have hkept := h 2
  rw [hbyte] at hkept
  exact absurd hkept (by decide)

end MiniIp.Guarantees.OverlappingMove
