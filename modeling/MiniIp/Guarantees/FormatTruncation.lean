import MiniIp.Invariant.FormatOutput

/-!
# Truncated output

A smaller buffer gets the beginning of what a larger one gets. The length that is returned is that of the part that
fits, and nothing behind the buffer is written.
-/

set_option autoImplicit false

namespace MiniIp.Guarantees.FormatTruncation

open MiniIp.Source MiniIp.Invariant

/-- The results for buffers of `n` and `m` bytes, the first in a memory that has been given. -/
structure Truncates (n m : ℕ) (memory : Memory) (small large : Int × Memory) : Prop where
  fits : 0 ≤ large.1 ∧ large.1 ≤ m
  length : small.1 = min (n : Int) large.1
  output : outputBytes small = (outputBytes large).take (min (n : Int) large.1).toNat
  outside : ∀ place : Int, place < 0 ∨ n ≤ place → small.2 place = memory place

variable {VaList : Type} {chars : List UInt8} {n m : ℕ}

theorem truncates_of_text (text : List UInt8) (h : n ≤ m) (memory memory' : Memory) :
    Truncates n m memory ((text.take n).length, writeBytes (text.take n) 0 memory)
      ((text.take m).length, writeBytes (text.take m) 0 memory') := by
  have hsmall : (text.take n).length = min n text.length := List.length_take
  have hlarge : (text.take m).length = min m text.length := List.length_take
  constructor
  · dsimp only
    omega
  · dsimp only
    omega
  · have hcount : (min (n : Int) ((text.take m).length : ℕ)).toNat = min n text.length := by omega
    dsimp only [outputBytes]
    rw [Int.toNat_natCast, Int.toNat_natCast, readBytes_writeBytes, readBytes_writeBytes, hcount, List.take_take]
    rcases Nat.le_total n text.length with hshort | hlong
    · rw [Nat.min_eq_left hshort, Nat.min_eq_left h]
    · rw [Nat.min_eq_right hlong, List.take_of_length_le hlong, Nat.min_eq_left (hlong.trans h), List.take_length]
  · intro place hplace
    dsimp only
    exact writeBytes_other _ (by omega)

/-- For every complete format, all arguments and all buffers. -/
theorem format_truncates (va : StdArg VaList) (hzero : 0 ∉ chars) (hcomplete : Complete chars) (arguments : VaList)
    (h : n ≤ m) (memory memory' : Memory) :
    ∃ small large, formatString va (chars ++ [0]) n arguments memory = .ok small ∧
      formatString va (chars ++ [0]) m arguments memory' = .ok large ∧ Truncates n m memory small large := by
  obtain ⟨text, htext⟩ := formatString_text va hzero hcomplete arguments
  exact ⟨_, _, htext n memory, htext m memory', truncates_of_text text h memory memory'⟩

/-- "{5u}" into three bytes and into sixteen. -/
theorem format_truncates_number :
    ∃ small large, formatString stackArguments ([123, 53, 117, 125] ++ [0]) (3 : ℕ) [1234] (fun _ => 255) = .ok small ∧
      formatString stackArguments ([123, 53, 117, 125] ++ [0]) (16 : ℕ) [1234] (fun _ => 255) = .ok large ∧
      Truncates 3 16 (fun _ => 255) small large :=
  format_truncates stackArguments (by decide) (by decide) [1234] (by decide) (fun _ => 255) (fun _ => 255)

end MiniIp.Guarantees.FormatTruncation
