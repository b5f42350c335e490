import MiniIp.Library.NumberFields
import MiniIp.Source.Text

/-!
# Digits in ASCII

The numeral systems that the source prints and reads. For the digits '0' to '9' it computes with the character codes
instead.
-/

set_option autoImplicit false

namespace MiniIp.Invariant

open MiniIp.Library MiniIp.Source

def decimal : Numerals UInt8 :=
  .ofSymbols [48, 49, 50, 51, 52, 53, 54, 55, 56, 57] (by decide) (by decide)

def binary : Numerals UInt8 := .ofSymbols [48, 49] (by decide) (by decide)

/-- With small letters. -/
def lowerHex : Numerals UInt8 :=
  .ofSymbols [48, 49, 50, 51, 52, 53, 54, 55, 56, 57, 97, 98, 99, 100, 101, 102] (by decide) (by decide)

def upperHex : Numerals UInt8 :=
  .ofSymbols [48, 49, 50, 51, 52, 53, 54, 55, 56, 57, 65, 66, 67, 68, 69, 70] (by decide) (by decide)

/-- With '-', '+' and the space. -/
def withSigns (N : Numerals UInt8) (hminus : N.value 45 = none) (hplus : N.value 43 = none) (hblank : N.value 32 = none) :
    SignedNumerals UInt8 where
  toNumerals := N
  minus := 45
  plus := 43
  blank := 32
  minus_value := hminus
  plus_value := hplus
  blank_value := hblank
  minus_ne_plus := by decide
  minus_ne_blank := by decide
  plus_ne_blank := by decide

variable {c : UInt8} {d : ℕ}

/-- `'0' <= c && c <= '9'` -/
def IsDigit (c : UInt8) : Prop := 48 ≤ c ∧ c ≤ 57

instance (c : UInt8) : Decidable (IsDigit c) := inferInstanceAs (Decidable (48 ≤ c ∧ c ≤ 57))

theorem decimal_base : decimal.base = 10 := rfl

theorem isDigit_iff : IsDigit c ↔ ∃ d, d < 10 ∧ c = UInt8.ofNat (48 + d) := by
  rw [IsDigit, UInt8.le_iff_toNat_le, UInt8.le_iff_toNat_le]
  constructor
  · rintro ⟨hlower, hupper⟩
    have hzero : (48 : UInt8).toNat = 48 := rfl
    have hnine : (57 : UInt8).toNat = 57 := rfl
    refine ⟨c.toNat - 48, by omega, ?_⟩
    rw [← UInt8.toNat_inj, UInt8.toNat_ofNat']
    omega
  · rintro ⟨d, hd, rfl⟩
    have hzero : (48 : UInt8).toNat = 48 := rfl
    have hnine : (57 : UInt8).toNat = 57 := rfl
    rw [UInt8.toNat_ofNat']
    omega

theorem decimal_symbol (h : d < 10) : decimal.symbol d = UInt8.ofNat (48 + d) := by
  interval_cases d <;> rfl

theorem decimal_value (h : d < 10) : decimal.value (UInt8.ofNat (48 + d)) = some d := by
  rw [← decimal_symbol h]
  exact decimal.value_symbol d h

/-- Every other character is none of the symbols. -/
theorem decimal_value_none (h : ¬ IsDigit c) : decimal.value c = none := by
  refine if_neg fun hmem => h ?_
  simp only [List.mem_cons, List.not_mem_nil, or_false] at hmem
  rcases hmem with rfl | rfl | rfl | rfl | rfl | rfl | rfl | rfl | rfl | rfl <;> decide

theorem decimal_value_iff : decimal.value c = some d ↔ d < 10 ∧ c = UInt8.ofNat (48 + d) := by
  constructor
  · intro h
    by_cases hdigit : IsDigit c
    · obtain ⟨d', hd', rfl⟩ := isDigit_iff.mp hdigit
      rw [decimal_value hd'] at h
      obtain rfl := Option.some.inj h
      exact ⟨hd', rfl⟩
    · rw [decimal_value_none hdigit] at h
      exact absurd h (by simp)
  · rintro ⟨hd, rfl⟩
    exact decimal_value hd

end MiniIp.Invariant
