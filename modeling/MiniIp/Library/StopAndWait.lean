import Mathlib.Data.List.Basic

/-!
# Stop-and-wait transfer of a file in numbered blocks

A file is cut into blocks of `size` elements, numbered from 1; the last block is
the first one that is shorter, and may be empty. A receiver takes the block with
the number after the last one it has taken, and nothing else. Whatever the
channel does, what it has received is then the file up to the end of that block.
-/

set_option autoImplicit false

namespace MiniIp.Library.StopAndWait

variable {α : Type} {size : ℕ} {file : List α}

/-- Block `i` of a file, for `i` from 1. -/
def block (size : ℕ) (file : List α) (i : ℕ) : List α := (file.drop (size * (i - 1))).take size

/-- The number of the last block. -/
def lastBlock (size : ℕ) (file : List α) : ℕ := file.length / size + 1

structure Receiver (α : Type) where
  /-- The number of the last block taken. -/
  taken : ℕ
  received : List α

/-- What the receiver makes of `data` that is numbered `i`. -/
def Receiver.accept (r : Receiver α) (i : ℕ) (data : List α) : Receiver α :=
  if i = r.taken + 1 then ⟨i, r.received ++ data⟩ else r

/-- The receiver has the file up to the end of the last block it has taken. -/
def Receiver.UpTo (size : ℕ) (file : List α) (r : Receiver α) : Prop :=
  r.received = file.take (size * r.taken)

theorem block_length (i : ℕ) : (block size file i).length = min size (file.length - size * (i - 1)) := by
  simp [block]

theorem block_length_le (i : ℕ) : (block size file i).length ≤ size := by
  rw [block_length]
  exact Nat.min_le_left _ _

/-- One block after another. -/
theorem take_append_block (size : ℕ) (file : List α) (k : ℕ) :
    file.take (size * k) ++ block size file (k + 1) = file.take (size * (k + 1)) := by
  rw [block, Nat.add_sub_cancel, Nat.mul_succ, List.take_add]

/-- All blocks but the last are full. -/
theorem block_length_of_lt {i : ℕ} (hpositive : 0 < i) (hlast : i < lastBlock size file) :
    (block size file i).length = size := by
  obtain ⟨k, rfl⟩ : ∃ k, i = k + 1 := ⟨i - 1, by omega⟩
  have hk : k + 1 ≤ file.length / size := by
    unfold lastBlock at hlast
    omega
  have hfull := Nat.le_trans (Nat.mul_le_mul_left size hk) (Nat.mul_div_le file.length size)
  rw [Nat.mul_succ] at hfull
  rw [block_length, Nat.add_sub_cancel]
  omega

theorem lastBlock_length (hsize : 0 < size) :
    (block size file (lastBlock size file)).length = file.length % size := by
  have hdiv := Nat.div_add_mod file.length size
  have hmod := Nat.mod_lt file.length hsize
  rw [block_length, lastBlock, Nat.add_sub_cancel]
  omega

/-- The blocks up to the last one are the whole file. -/
theorem take_lastBlock (hsize : 0 < size) : file.take (size * lastBlock size file) = file := by
  have hdiv := Nat.div_add_mod file.length size
  have hmod := Nat.mod_lt file.length hsize
  apply List.take_of_length_le
  rw [lastBlock, Nat.mul_succ]
  omega

namespace Receiver

variable {r : Receiver α}

/-- Taking the next block, or a number that is not the next one. -/
theorem UpTo.accept (h : r.UpTo size file) (i : ℕ) {data : List α}
    (hdata : i = r.taken + 1 → data = block size file i) : (r.accept i data).UpTo size file := by
  unfold Receiver.accept
  split
  · next hnext =>
    have happend := take_append_block size file r.taken
    rw [UpTo, hdata hnext, h, hnext, happend]
  · exact h

theorem UpTo.isPrefix (h : r.UpTo size file) : r.received <+: file := by
  rw [h]
  exact List.take_prefix _ _

/-- Once the last block has been taken, the receiver has the file. -/
theorem UpTo.complete (h : r.UpTo size file) (hsize : 0 < size) (hlast : r.taken = lastBlock size file) :
    r.received = file := by
  rw [h, hlast, take_lastBlock hsize]

end Receiver

end MiniIp.Library.StopAndWait
