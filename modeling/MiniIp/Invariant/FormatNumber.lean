import MiniIp.Invariant.AsciiDigits
import MiniIp.Invariant.FormatOutput

/-!
# Printed numbers

`write_number` puts into the buffer what the numeral system of its base has for the number, with a sign before it, in
a field of the given width.
-/

set_option autoImplicit false

namespace MiniIp.Invariant

open MiniIp.Library MiniIp.Source

/-- The flags choose the numeral system. -/
structure Prints (N : SignedNumerals UInt8) (flags : FormatFlags) : Prop where
  base : N.base = numberBase flags
  symbol : ∀ d, d < N.base → (formatTable flags.uppercase).getD d 0 = N.symbol d
  zero : N.symbol 0 = 48
  blank : N.blank = 32
  plus : N.plus = 43
  minus : N.minus = 45

variable {N : SignedNumerals UInt8} {flags : FormatFlags} {table : List UInt8} {value : Int} {n room width : ℕ}
  {sign : Sign}

/-- The loop over the digits has room for all of them. -/
theorem numberChars_eq (N : Numerals UInt8) (htable : ∀ d, d < N.base → table.getD d 0 = N.symbol d)
    (hn : n < N.base ^ (room + 1)) : numberChars table N.base (room + 1) n = (N.digits n).map N.symbol := by
  have hbase := N.one_lt
  induction room generalizing n with
  | zero =>
    rw [Nat.zero_add, pow_one] at hn
    rw [numberChars, N.digits_step, Nat.div_eq_of_lt hn, if_neg (fun h => h rfl), if_pos rfl, List.map_cons,
      htable _ (Nat.mod_lt n (by omega)), List.map_nil]
  | succ room ih =>
    have hquotient : n / N.base < N.base ^ (room + 1) := by
      rw [Nat.div_lt_iff_lt_mul (by omega), ← pow_succ]
      exact hn
    rw [numberChars, N.digits_step, List.map_cons, htable _ (Nat.mod_lt n (by omega))]
    congr 1
    by_cases hzero : n / N.base = 0
    · rw [if_neg (fun h => h hzero), if_pos hzero, List.map_nil]
    · rw [if_pos hzero, if_neg hzero]
      exact ih hquotient

theorem unsignedValue_lt (value : Int) (flags : FormatFlags) : unsignedValue value flags < 2 ^ 64 := by
  unfold unsignedValue
  dsimp only
  split <;> omega

theorem digitText_eq (hprints : Prints N flags) (value : Int) :
    digitText value flags = N.numeral (unsignedValue value flags) := by
  have hroom : unsignedValue value flags < N.base ^ (63 + 1) :=
    lt_of_lt_of_le (unsignedValue_lt value flags) (Nat.pow_le_pow_left N.one_lt 64)
  rw [digitText, ← hprints.base, numberChars_eq N.toNumerals hprints.symbol hroom, Numerals.numeral, List.map_reverse]

/-- The sign that stands before a value. -/
def signOf (value : Int) (flags : FormatFlags) : Sign :=
  if !flags.signed && flags.alwaysSign then .plus else if isNegative value flags then .minus else .none

theorem signText_eq (hprints : Prints N flags) (value : Int) : signText value flags = N.signText (signOf value flags) := by
  unfold signText signOf signChar
  split_ifs <;> first | contradiction | simp_all [SignedNumerals.signText, hprints.plus, hprints.minus]

theorem padded_eq (hprints : Prints N flags) (text : List UInt8) (width : Int) :
    padded text width flags = N.padded flags.zeroPad flags.leftJustify width.toNat text := by
  have hpad : padChar flags = if flags.zeroPad then N.symbol 0 else N.blank := by
    rw [padChar, hprints.zero, hprints.blank]
  have hcount : (width - text.length).toNat = width.toNat - text.length := by omega
  rw [padded, SignedNumerals.padded, hpad, hcount]

theorem writeNumber_field (hprints : Prints N flags) (value width stop : Int) (out : Output) :
    writeNumber value width flags stop out = writeChars (N.padded flags.zeroPad flags.leftJustify width.toNat
      (N.bare (signOf value flags) (unsignedValue value flags))) stop out := by
  rw [writeNumber_eq, padded_eq hprints, bareText, signText_eq hprints, digitText_eq hprints]
  rfl

end MiniIp.Invariant
