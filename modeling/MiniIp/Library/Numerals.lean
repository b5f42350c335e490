import Mathlib.Data.Nat.Digits.Lemmas

/-!
# Positional numerals

The numeral of a number over any symbols, and its reading from the most significant symbol down. A numeral is read
back as its number; zeros before it change nothing, and zeros behind it multiply by the base.
-/

set_option autoImplicit false

namespace MiniIp.Library

/-- A base, the symbols of its digits, and what a symbol is worth. -/
structure Numerals (σ : Type) where
  base : ℕ
  symbol : ℕ → σ
  value : σ → Option ℕ
  one_lt : 1 < base
  value_symbol : ∀ d, d < base → value (symbol d) = some d

namespace Numerals

variable {σ : Type} (N : Numerals σ) {n d acc : ℕ} {s : σ} {text rest : List σ} {ds : List ℕ}

/-- The digits of a number, the least significant first; zero has one. -/
def digits (n : ℕ) : List ℕ := if n = 0 then [0] else N.base.digits n

def numeral (n : ℕ) : List σ := (N.digits n).reverse.map N.symbol

/-- Reads on from a value; there is none where a symbol is no digit. -/
def readFrom (acc : ℕ) : List σ → Option ℕ
  | [] => some acc
  | s :: rest => (N.value s).bind fun d => readFrom (acc * N.base + d) rest

/-- A number has at least one digit. -/
def read (text : List σ) : Option ℕ := if text.isEmpty then none else N.readFrom 0 text

/-- The numeral of a number without zeros before it. -/
structure Shortest (n : ℕ) (text : List σ) : Prop where
  read : N.read text = some n
  first : text.head? = some (N.symbol 0) → text = [N.symbol 0]

/-- The numerals over a list of symbols. -/
def ofSymbols [DecidableEq σ] [Inhabited σ] (symbols : List σ) (distinct : symbols.Nodup) (several : 1 < symbols.length) :
    Numerals σ where
  base := symbols.length
  symbol d := symbols.getD d default
  value s := if s ∈ symbols then some (symbols.idxOf s) else none
  one_lt := several
  value_symbol d hd := by
    rw [List.getD_eq_getElem?_getD, List.getElem?_eq_getElem hd, Option.getD_some, if_pos (List.getElem_mem hd),
      distinct.idxOf_getElem]

theorem digits_lt (h : d ∈ N.digits n) : d < N.base := by
  unfold digits at h
  split at h
  · have hbase := N.one_lt
    rw [List.mem_singleton] at h
    omega
  · exact Nat.digits_lt_base N.one_lt h

theorem ofDigits_digits (n : ℕ) : Nat.ofDigits N.base (N.digits n) = n := by
  unfold digits
  split
  · next hzero => rw [hzero, Nat.ofDigits_singleton]
  · exact Nat.ofDigits_digits N.base n

theorem digits_ne_nil (n : ℕ) : N.digits n ≠ [] := by
  unfold digits
  split
  · exact List.cons_ne_nil 0 []
  · next hnonzero => exact Nat.digits_ne_nil_iff_ne_zero.mpr hnonzero

/-- What a loop computes that puts the digits into a buffer. -/
theorem digits_step (n : ℕ) :
    N.digits n = n % N.base :: if n / N.base = 0 then [] else N.digits (n / N.base) := by
  by_cases hzero : n = 0
  · subst hzero
    rw [digits, if_pos rfl, Nat.zero_mod, Nat.zero_div, if_pos rfl]
  · rw [digits, if_neg hzero, Nat.digits_def' N.one_lt (Nat.pos_of_ne_zero hzero)]
    congr 1
    split
    · next hquotient => rw [hquotient, Nat.digits_zero]
    · next hquotient => rw [digits, if_neg hquotient]

theorem digits_length_le {room : ℕ} (hroom : 1 ≤ room) (h : n < N.base ^ room) : (N.digits n).length ≤ room := by
  unfold digits
  split
  · exact hroom
  · exact (Nat.digits_length_le_iff N.one_lt n).mpr h

theorem numeral_length (n : ℕ) : (N.numeral n).length = (N.digits n).length := by
  rw [numeral, List.length_map, List.length_reverse]

theorem numeral_ne_nil (n : ℕ) : N.numeral n ≠ [] := by
  rw [numeral, Ne, List.map_eq_nil_iff, List.reverse_eq_nil_iff]
  exact N.digits_ne_nil n

theorem readFrom_append (acc : ℕ) (text rest : List σ) :
    N.readFrom acc (text ++ rest) = (N.readFrom acc text).bind fun value => N.readFrom value rest := by
  induction text generalizing acc with
  | nil => rfl
  | cons s text ih =>
    rw [List.cons_append, readFrom, readFrom]
    cases N.value s with
    | none => rfl
    | some d => exact ih (acc * N.base + d)

theorem readFrom_le (h : N.readFrom acc text = some n) : acc ≤ n := by
  induction text generalizing acc with
  | nil => exact le_of_eq (Option.some.inj h)
  | cons s text ih =>
    obtain ⟨d, -, hread⟩ := Option.bind_eq_some_iff.mp h
    have hbase := Nat.le_mul_of_pos_right acc (lt_trans Nat.zero_lt_one N.one_lt)
    have hrest := ih hread
    omega

/-- What has been read before counts as so many digits more. -/
theorem readFrom_shift (k : ℕ) (h : N.readFrom acc text = some n) :
    N.readFrom (k + acc) text = some (k * N.base ^ text.length + n) := by
  induction text generalizing acc k with
  | nil =>
    obtain rfl := Option.some.inj h
    rw [readFrom, List.length_nil, pow_zero, mul_one]
  | cons s text ih =>
    obtain ⟨d, hd, hread⟩ := Option.bind_eq_some_iff.mp h
    have hnext : (k + acc) * N.base + d = k * N.base + (acc * N.base + d) := by ring
    have hpower : k * N.base * N.base ^ text.length = k * N.base ^ (text.length + 1) := by ring
    rw [readFrom, hd, Option.bind_some, hnext, ih (k * N.base) hread, List.length_cons, hpower]

theorem readFrom_map (acc : ℕ) (h : ∀ d ∈ ds, d < N.base) :
    N.readFrom acc (ds.map N.symbol) = some (ds.foldl (fun value d => value * N.base + d) acc) := by
  induction ds generalizing acc with
  | nil => rfl
  | cons d ds ih =>
    rw [List.map_cons, readFrom, N.value_symbol d (h d List.mem_cons_self), Option.bind_some, List.foldl_cons]
    exact ih (acc * N.base + d) fun d' hd' => h d' (List.mem_cons_of_mem d hd')

/-- Digits are read as Mathlib's `ofDigits` has it. -/
theorem readFrom_reverse (h : ∀ d ∈ ds, d < N.base) :
    N.readFrom 0 (ds.reverse.map N.symbol) = some (Nat.ofDigits N.base ds) := by
  have hvalue : ds.reverse.foldl (fun value d => value * N.base + d) 0 = Nat.ofDigits N.base ds := by
    rw [List.foldl_reverse]
    induction ds with
    | nil => rfl
    | cons d ds ih =>
      rw [List.foldr_cons, ih fun d' hd' => h d' (List.mem_cons_of_mem d hd'), Nat.ofDigits_cons, Nat.mul_comm,
        Nat.add_comm]
  rw [N.readFrom_map 0 fun d hd => h d (List.mem_reverse.mp hd), hvalue]

theorem read_of_ne_nil (h : text ≠ []) : N.read text = N.readFrom 0 text := by
  rw [read, if_neg]
  rwa [List.isEmpty_iff]

theorem readFrom_numeral (n : ℕ) : N.readFrom 0 (N.numeral n) = some n := by
  rw [numeral, N.readFrom_reverse fun d hd => N.digits_lt hd, N.ofDigits_digits]

theorem read_numeral (n : ℕ) : N.read (N.numeral n) = some n := by
  rw [N.read_of_ne_nil (N.numeral_ne_nil n), N.readFrom_numeral]

theorem readFrom_zeros (acc k : ℕ) :
    N.readFrom acc (List.replicate k (N.symbol 0)) = some (acc * N.base ^ k) := by
  induction k generalizing acc with
  | zero => rw [List.replicate_zero, readFrom, pow_zero, Nat.mul_one]
  | succ k ih =>
    have hbase := N.one_lt
    rw [List.replicate_succ, readFrom, N.value_symbol 0 (by omega), Option.bind_some, ih, pow_succ', Nat.add_zero,
      Nat.mul_assoc]

/-- Zeros before a numeral change nothing. -/
theorem read_leading (n k : ℕ) : N.read (List.replicate k (N.symbol 0) ++ N.numeral n) = some n := by
  rw [N.read_of_ne_nil (List.append_ne_nil_of_right_ne_nil _ (N.numeral_ne_nil n)), readFrom_append, readFrom_zeros,
    Option.bind_some, Nat.zero_mul, readFrom_numeral]

/-- Zeros behind a numeral multiply by the base. -/
theorem read_trailing (n k : ℕ) :
    N.read (N.numeral n ++ List.replicate k (N.symbol 0)) = some (n * N.base ^ k) := by
  rw [N.read_of_ne_nil (List.append_ne_nil_of_left_ne_nil (N.numeral_ne_nil n) _), readFrom_append, readFrom_numeral,
    Option.bind_some, readFrom_zeros]

/-- A symbol that is no digit spoils the number. -/
theorem readFrom_stranger (h : N.value s = none) (acc : ℕ) (text rest : List σ) :
    N.readFrom acc (text ++ s :: rest) = none := by
  rw [readFrom_append]
  cases N.readFrom acc text with
  | none => rfl
  | some value => rw [Option.bind_some, readFrom, h, Option.bind_none]

theorem read_stranger (h : N.value s = none) (text rest : List σ) : N.read (text ++ s :: rest) = none := by
  rw [N.read_of_ne_nil (List.append_ne_nil_of_right_ne_nil _ (List.cons_ne_nil s rest)), N.readFrom_stranger h]

/-- The digit zero comes first only in the number zero. -/
theorem symbol_zero_iff (h : d < N.base) : N.symbol d = N.symbol 0 ↔ d = 0 := by
  have hbase := N.one_lt
  constructor
  · intro hsame
    have hvalue := congrArg N.value hsame
    rw [N.value_symbol d h, N.value_symbol 0 (by omega)] at hvalue
    exact Option.some.inj hvalue
  · intro hzero
    rw [hzero]

theorem numeral_shortest (n : ℕ) : N.Shortest n (N.numeral n) := by
  constructor
  · exact N.read_numeral n
  · intro hfirst
    rw [numeral, List.head?_map, List.head?_reverse, List.getLast?_eq_some_getLast (N.digits_ne_nil n),
      Option.map_some, Option.some_inj, N.symbol_zero_iff (N.digits_lt (List.getLast_mem _))] at hfirst
    by_cases hzero : n = 0
    · rw [hzero]
      rfl
    · simp only [digits, if_neg hzero] at hfirst
      exact absurd hfirst (Nat.getLast_digit_ne_zero N.base hzero)

end Numerals

end MiniIp.Library
