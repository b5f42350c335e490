import Mathlib.Data.List.DropRight
import MiniIp.Library.Numerals

/-!
# Numbers in fields

A number is printed with a sign, or without, in a field of a given width. What is left of the field is filled with blanks
or zeros, on the one side or the other. Blanks are no matter. Zeros go well only where they stand between sign and
digits, that is, before the digits of a number without a sign, or where they do not change the number zero.
-/

set_option autoImplicit false

namespace MiniIp.Library

/-- Three more symbols, none of them a digit. -/
structure SignedNumerals (σ : Type) extends Numerals σ where
  minus : σ
  plus : σ
  blank : σ
  minus_value : value minus = none
  plus_value : value plus = none
  blank_value : value blank = none
  minus_ne_plus : minus ≠ plus
  minus_ne_blank : minus ≠ blank
  plus_ne_blank : plus ≠ blank

inductive Sign where
  | none | plus | minus
  deriving DecidableEq, Repr

def Sign.apply (n : ℕ) : Sign → ℤ
  | none => n
  | plus => n
  | minus => -n

theorem Sign.apply_inj {sign : Sign} {m n : ℕ} : sign.apply m = sign.apply n ↔ m = n := by
  cases sign with
  | none => exact Int.ofNat_inj
  | plus => exact Int.ofNat_inj
  | minus => exact neg_inj.trans Int.ofNat_inj

namespace SignedNumerals

variable {σ : Type} (N : SignedNumerals σ) {n k : ℕ} {s : σ} {text : List σ} {sign : Sign}

def signText : Sign → List σ
  | .none => []
  | .plus => [N.plus]
  | .minus => [N.minus]

/-- A number in as many symbols as it takes. -/
def bare (sign : Sign) (n : ℕ) : List σ := N.signText sign ++ N.numeral n

/-- Fills a field with zeros or blanks, behind the text or before it. -/
def padded (zeros left : Bool) (width : ℕ) (text : List σ) : List σ :=
  if left then text ++ List.replicate (width - text.length) (if zeros then N.symbol 0 else N.blank)
  else List.replicate (width - text.length) (if zeros then N.symbol 0 else N.blank) ++ text

/-- Zeros stand where they spoil the number: behind a number other than zero, or before a sign. -/
def Misplaced (zeros left : Bool) (width : ℕ) (sign : Sign) (n : ℕ) : Prop :=
  zeros = true ∧ (N.bare sign n).length < width ∧ (left = true ∧ n ≠ 0 ∨ left = false ∧ sign ≠ .none)

theorem padded_length (zeros left : Bool) (width : ℕ) (text : List σ) :
    (N.padded zeros left width text).length = max width text.length := by
  unfold padded
  split
  · rw [List.length_append, List.length_replicate]
    omega
  · rw [List.length_append, List.length_replicate]
    omega

theorem numeral_digit (h : s ∈ N.numeral n) : ∃ d, N.value s = some d := by
  obtain ⟨d, hd, rfl⟩ := List.mem_map.mp h
  exact ⟨d, N.value_symbol d (N.digits_lt (List.mem_reverse.mp hd))⟩

theorem zero_digit : N.value (N.symbol 0) = some 0 := N.value_symbol 0 (lt_trans Nat.zero_lt_one N.one_lt)

theorem ne_of_digit {s' : σ} {d : ℕ} (h : N.value s = some d) (h' : N.value s' = none) : s ≠ s' := by
  rintro rfl
  rw [h] at h'
  cases h'

theorem bare_ne_blank (h : s ∈ N.bare sign n) : s ≠ N.blank := by
  rcases List.mem_append.mp h with hsign | hdigit
  · cases sign with
    | none => exact absurd hsign List.not_mem_nil
    | plus =>
      rw [List.mem_singleton.mp hsign]
      exact N.plus_ne_blank
    | minus =>
      rw [List.mem_singleton.mp hsign]
      exact N.minus_ne_blank
  · obtain ⟨d, hd⟩ := N.numeral_digit hdigit
    exact N.ne_of_digit hd N.blank_value

theorem bare_ne_nil (sign : Sign) (n : ℕ) : N.bare sign n ≠ [] :=
  List.append_ne_nil_of_right_ne_nil _ (N.numeral_ne_nil n)

theorem head_numeral (n : ℕ) (behind : List σ) :
    ∀ s, (N.numeral n ++ behind).head? = some s → ∃ d, N.value s = some d := by
  intro s hhead
  rw [List.head?_append_of_ne_nil _ (N.numeral_ne_nil n)] at hhead
  exact N.numeral_digit (List.mem_of_head? hhead)

variable [DecidableEq σ]

/-- The text without blanks at its ends. -/
def trim (text : List σ) : List σ := (text.dropWhile (· = N.blank)).rdropWhile (· = N.blank)

/-- A sign, or none, and then digits. -/
def readSigned (text : List σ) : Option ℤ :=
  if text.head? = some N.minus then (N.read text.tail).map (Sign.apply · .minus)
  else if text.head? = some N.plus then (N.read text.tail).map (Sign.apply · .plus)
  else (N.read text).map (Sign.apply · .none)

theorem trim_blanks (h : ∀ s ∈ text, s ≠ N.blank) (hne : text ≠ []) (i j : ℕ) :
    N.trim (List.replicate i N.blank ++ text ++ List.replicate j N.blank) = text := by
  have hback : ∀ j, (text ++ List.replicate j N.blank).rdropWhile (· = N.blank) = text := by
    intro j
    induction j with
    | zero =>
      rw [List.replicate_zero, List.append_nil, List.rdropWhile_eq_self_iff]
      intro hl
      simpa using h _ (List.getLast_mem hl)
    | succ j ih =>
      rw [List.replicate_succ', ← List.append_assoc, List.rdropWhile_concat_pos _ _ _ (by simp)]
      exact ih
  have hfront : ∀ i, (List.replicate i N.blank ++ (text ++ List.replicate j N.blank)).dropWhile (· = N.blank) =
      text ++ List.replicate j N.blank := by
    intro i
    induction i with
    | zero =>
      cases text with
      | nil => exact absurd rfl hne
      | cons s text => exact List.dropWhile_cons_of_neg (by simpa using h s List.mem_cons_self)
    | succ i ih =>
      rw [List.replicate_succ, List.cons_append, List.dropWhile_cons_of_pos (by simp)]
      exact ih
  rw [trim, List.append_assoc, hfront, hback]

theorem trim_self (h : ∀ s ∈ text, s ≠ N.blank) (hne : text ≠ []) : N.trim text = text := by
  have hblanks := N.trim_blanks h hne 0 0
  rwa [List.replicate_zero, List.nil_append, List.append_nil] at hblanks

/-- A sign is told from a digit. -/
theorem readSigned_sign (sign : Sign) (h : ∀ s, text.head? = some s → ∃ d, N.value s = some d) :
    N.readSigned (N.signText sign ++ text) = (N.read text).map (Sign.apply · sign) := by
  cases sign with
  | none =>
    have hminus : text.head? ≠ some N.minus := by
      intro hhead
      obtain ⟨d, hd⟩ := h _ hhead
      rw [N.minus_value] at hd
      cases hd
    have hplus : text.head? ≠ some N.plus := by
      intro hhead
      obtain ⟨d, hd⟩ := h _ hhead
      rw [N.plus_value] at hd
      cases hd
    rw [signText, List.nil_append, readSigned, if_neg hminus, if_neg hplus]
  | plus =>
    have hminus : (N.signText .plus ++ text).head? ≠ some N.minus :=
      fun hhead => N.minus_ne_plus (Option.some.inj hhead).symm
    rw [readSigned, if_neg hminus]
    exact if_pos rfl
  | minus => exact if_pos rfl

theorem readSigned_bare (sign : Sign) (n : ℕ) : N.readSigned (N.bare sign n) = some (sign.apply n) := by
  have hhead := N.head_numeral n []
  rw [List.append_nil] at hhead
  rw [bare, N.readSigned_sign sign hhead, N.read_numeral, Option.map_some]

/-- Zeros behind the digits multiply the number. -/
theorem readSigned_trailing (sign : Sign) (hk : 0 < k) :
    N.readSigned (N.bare sign n ++ List.replicate k (N.symbol 0)) = some (sign.apply n) ↔ n = 0 := by
  rw [bare, List.append_assoc, N.readSigned_sign sign (N.head_numeral n _), N.read_trailing, Option.map_some,
    Option.some_inj, Sign.apply_inj]
  have hpower : 1 < N.base ^ k := Nat.one_lt_pow (by omega) N.one_lt
  constructor
  · intro hsame
    by_contra hn
    exact absurd hsame (Nat.ne_of_gt (lt_mul_of_one_lt_right (Nat.pos_of_ne_zero hn) hpower))
  · intro hzero
    rw [hzero, Nat.zero_mul]

/-- Zeros before the digits do nothing, and before a sign they leave nothing to read. -/
theorem readSigned_leading (sign : Sign) (hk : 0 < k) :
    N.readSigned (List.replicate k (N.symbol 0) ++ N.bare sign n) = some (sign.apply n) ↔ sign = .none := by
  obtain ⟨k, rfl⟩ : ∃ k', k = k' + 1 := ⟨k - 1, by omega⟩
  have hhead : ∀ s, (List.replicate (k + 1) (N.symbol 0) ++ N.bare sign n).head? = some s → ∃ d, N.value s = some d := by
    intro s hs
    obtain rfl := Option.some.inj hs
    exact ⟨0, N.zero_digit⟩
  have hread := N.readSigned_sign .none hhead
  rw [signText, List.nil_append] at hread
  rw [hread]
  cases sign with
  | none =>
    rw [bare, signText, List.nil_append, N.read_leading]
    exact iff_of_true rfl rfl
  | plus =>
    rw [bare, signText, List.cons_append, List.nil_append, N.read_stranger N.plus_value]
    exact iff_of_false (by simp) (by decide)
  | minus =>
    rw [bare, signText, List.cons_append, List.nil_append, N.read_stranger N.minus_value]
    exact iff_of_false (by simp) (by decide)

theorem readSigned_zeros (left : Bool) (width : ℕ) (sign : Sign) (n : ℕ) :
    N.readSigned (N.padded true left width (N.bare sign n)) = some (sign.apply n) ↔
      ¬ N.Misplaced true left width sign n := by
  unfold Misplaced padded
  rcases Nat.eq_zero_or_pos (width - (N.bare sign n).length) with hnone | hsome
  · have hfits : ¬ (N.bare sign n).length < width := by omega
    rw [hnone]
    simp [hfits, N.readSigned_bare]
  · have hwide : (N.bare sign n).length < width := by omega
    cases left with
    | true =>
      rw [if_pos rfl, if_pos rfl, N.readSigned_trailing sign hsome]
      simp [hwide]
    | false =>
      rw [if_neg (by decide), if_pos rfl, N.readSigned_leading sign hsome]
      simp [hwide]

/-- A field is read back as its number exactly where no zeros are misplaced. -/
theorem readSigned_padded_iff (zeros left : Bool) (width : ℕ) (sign : Sign) (n : ℕ) :
    N.readSigned (N.trim (N.padded zeros left width (N.bare sign n))) = some (sign.apply n) ↔
      ¬ N.Misplaced zeros left width sign n := by
  cases zeros with
  | true =>
    have htext : ∀ s ∈ N.padded true left width (N.bare sign n), s ≠ N.blank := by
      intro s hs
      have hzero : N.symbol 0 ≠ N.blank := N.ne_of_digit N.zero_digit N.blank_value
      have hmem : s ∈ List.replicate (width - (N.bare sign n).length) (N.symbol 0) ∨ s ∈ N.bare sign n := by
        unfold padded at hs
        split at hs
        · exact (List.mem_append.mp hs).symm
        · exact List.mem_append.mp hs
      rcases hmem with hzeros | hbare
      · rw [(List.mem_replicate.mp hzeros).2]
        exact hzero
      · exact N.bare_ne_blank hbare
    have hne : N.padded true left width (N.bare sign n) ≠ [] := by
      have hlength := N.padded_length true left width (N.bare sign n)
      have hbare := List.length_pos_of_ne_nil (N.bare_ne_nil sign n)
      exact List.ne_nil_of_length_pos (by omega)
    rw [N.trim_self htext hne]
    exact N.readSigned_zeros left width sign n
  | false =>
    have hbare : N.trim (N.padded false left width (N.bare sign n)) = N.bare sign n := by
      have hblanks := N.trim_blanks (fun s hs => N.bare_ne_blank hs) (N.bare_ne_nil sign n)
      unfold padded
      split
      · exact hblanks 0 _
      · have hfront := hblanks (width - (N.bare sign n).length) 0
        rwa [List.replicate_zero, List.append_nil] at hfront
    rw [hbare, N.readSigned_bare]
    exact iff_of_true rfl fun hmisplaced => absurd hmisplaced.1 (by decide)

end SignedNumerals

end MiniIp.Library
