import Mathlib.Data.Nat.Notation
import Mathlib.Tactic.SplitIfs

/-!
# Sums in ones' complement

The 16-bit words of a sequence of bytes are added with the carry brought back to the low end. The sum
that is computed in the natural numbers and folded at the end is the same.
-/

set_option autoImplicit false

namespace MiniIp.Library.OnesComplement

/-- Addition of 16-bit words with the end-around carry. -/
def onesAdd (a b : ℕ) : ℕ := if a + b < 65536 then a + b else a + b - 65535

/-- The ones' complement sum of big-endian words; an odd byte is padded with zero. -/
def onesSum : List UInt8 → ℕ
  | [] => 0
  | [high] => 256 * high.toNat
  | high :: low :: rest => onesAdd (256 * high.toNat + low.toNat) (onesSum rest)

/-- The sum of the same words in the natural numbers. -/
def wordSum : List UInt8 → ℕ
  | [] => 0
  | [high] => 256 * high.toNat
  | high :: low :: rest => 256 * high.toNat + low.toNat + wordSum rest

/-- What a number becomes when its carries have been added to its low end. -/
def folded (n : ℕ) : ℕ := if n = 0 then 0 else (n - 1) % 65535 + 1

variable {n : ℕ}

theorem folded_le (n : ℕ) : folded n ≤ 65535 := by
  unfold folded
  split <;> omega

theorem folded_of_lt (h : n < 65536) : folded n = n := by
  unfold folded
  split <;> omega

/-- One round of the fold. -/
theorem folded_carry (n : ℕ) : folded (n % 65536 + n / 65536) = folded n := by
  unfold folded
  split_ifs <;> omega

theorem onesAdd_folded (n m : ℕ) : onesAdd (folded n) (folded m) = folded (n + m) := by
  unfold onesAdd folded
  split_ifs <;> omega

/-- A number and the complement of its fold make the sum with all bits set. -/
theorem folded_complement (n : ℕ) : folded (n + (65535 - folded n)) = 65535 := by
  rcases Nat.eq_zero_or_pos n with rfl | hpos
  · decide
  · have hfold : folded n = (n - 1) % 65535 + 1 := if_neg (Nat.ne_of_gt hpos)
    have hlt : (n - 1) % 65535 < 65535 := Nat.mod_lt _ (by decide)
    have hdiv := Nat.div_add_mod (n - 1) 65535
    have hsum : n + (65535 - folded n) = 65534 + 65535 * ((n - 1) / 65535) + 1 := by omega
    rw [hsum, folded, if_neg (Nat.succ_ne_zero _), Nat.add_sub_cancel, Nat.add_mul_mod_self_left]

theorem word_lt (high low : UInt8) : 256 * high.toNat + low.toNat < 65536 := by
  have hhigh := high.toNat_lt
  have hlow := low.toNat_lt
  omega

theorem onesSum_eq (bytes : List UInt8) : onesSum bytes = folded (wordSum bytes) := by
  fun_induction onesSum bytes with
  | case1 => rfl
  | case2 high =>
    have hlt := word_lt high 0
    rw [wordSum, folded_of_lt]
    omega
  | case3 high low rest ih => rw [ih, wordSum, ← onesAdd_folded, folded_of_lt (word_lt high low)]

/-- The words of a sequence that is put together at a word boundary. -/
theorem wordSum_append {front back : List UInt8} (h : front.length % 2 = 0) :
    wordSum (front ++ back) = wordSum front + wordSum back := by
  fun_induction wordSum front with
  | case1 => simp
  | case2 high => simp at h
  | case3 high low rest ih =>
    have hrest : rest.length % 2 = 0 := by
      simp only [List.length_cons] at h
      omega
    simp only [List.cons_append, wordSum, ih hrest, Nat.add_assoc]

end MiniIp.Library.OnesComplement
