import MiniIp.Invariant.AsciiDigits
import MiniIp.Invariant.Buffer

/-!
# Internet addresses as text

`ip_to_string` writes the four octets in decimal, without zeros before them, with dots between, and `string_to_ip` reads
every such string back as the address. So two addresses are never written alike.
-/

set_option autoImplicit false

namespace MiniIp.Guarantees.IpText

open MiniIp.Library MiniIp.Source MiniIp.Invariant

/-- The octets are numbered as they are written. -/
def octet (ip : Ip) (i : ℕ) : ℕ := ip.toNat / 256 ^ (3 - i) % 256

/-- The four octets in decimal, joined by dots. -/
def IsDotted (ip : Ip) (text : List UInt8) : Prop :=
  ∃ a b c d, decimal.Shortest (octet ip 0) a ∧ decimal.Shortest (octet ip 1) b ∧ decimal.Shortest (octet ip 2) c ∧
    decimal.Shortest (octet ip 3) d ∧ text = a ++ 46 :: (b ++ 46 :: (c ++ 46 :: d))

variable {ip : Ip} {fragment : UInt8} {digits rest : List UInt8} {c : UInt8} {acc n room left i : ℕ}

/-- The digits of a field are read up to the first character that is none. -/
theorem readNumber_digits (h : decimal.readFrom acc digits = some n) (hc : ¬ IsDigit c) :
    readNumber (UInt8.ofNat acc) (digits ++ c :: rest) = (UInt8.ofNat n, c :: rest) := by
  induction digits generalizing acc with
  | nil =>
    obtain rfl := Option.some.inj h
    exact if_neg hc
  | cons first digits ih =>
    rw [Numerals.readFrom] at h
    obtain ⟨d, hvalue, hread⟩ := Option.bind_eq_some_iff.mp h
    obtain ⟨hd, rfl⟩ := decimal_value_iff.mp hvalue
    have hdigit : IsDigit (UInt8.ofNat (48 + d)) := isDigit_iff.mpr ⟨d, hd, rfl⟩
    have hnext : UInt8.ofNat acc * 10 + UInt8.ofNat (48 + d) - 48 = UInt8.ofNat (acc * decimal.base + d) := by
      rw [decimal_base, UInt8.ofNat_add, UInt8.ofNat_add, UInt8.ofNat_mul]
      show UInt8.ofNat acc * 10 + (48 + UInt8.ofNat d) - 48 = UInt8.ofNat acc * 10 + UInt8.ofNat d
      rw [UInt8.add_comm 48, ← UInt8.add_assoc, UInt8.add_sub_cancel]
    rw [List.cons_append, readNumber, hnext]
    exact (if_pos hdigit).trans (ih hread)

/-- What is left in `fragment` has no more digits than there is room. -/
theorem fragmentDigits_eq (h : fragment.toNat < 10 ^ room) :
    fragmentDigits room fragment = (Nat.digits 10 fragment.toNat).map decimal.symbol := by
  induction room generalizing fragment with
  | zero =>
    have hzero : fragment.toNat = 0 := by omega
    rw [fragmentDigits, hzero, Nat.digits_zero, List.map_nil]
  | succ room ih =>
    unfold fragmentDigits
    split
    · next hzero => rw [hzero, UInt8.toNat_zero, Nat.digits_zero, List.map_nil]
    · next hnonzero =>
      have hpos : 0 < fragment.toNat := by
        rw [Nat.pos_iff_ne_zero, Ne, ← UInt8.toNat_zero, UInt8.toNat_inj]
        exact hnonzero
      have hquotient : (fragment / 10).toNat = fragment.toNat / 10 := UInt8.toNat_div fragment 10
      have hremainder : (fragment % 10).toNat = fragment.toNat % 10 := UInt8.toNat_mod fragment 10
      have hsymbol : fragment % 10 + 48 = decimal.symbol (fragment.toNat % 10) := by
        rw [decimal_symbol (by omega), ← hremainder, UInt8.ofNat_add, UInt8.ofNat_toNat, UInt8.add_comm]
        rfl
      rw [ih (by omega), hquotient, hsymbol, Nat.digits_def' (by omega) hpos, List.map_cons]

theorem fragmentToString_eq (fragment : UInt8) : fragmentToString fragment = decimal.numeral fragment.toNat := by
  have hsmall : fragment.toNat < 10 ^ 3 := lt_trans fragment.toNat_lt (by decide)
  unfold fragmentToString Numerals.numeral Numerals.digits
  by_cases hzero : fragment = 0
  · rw [hzero]
    rfl
  · have hnonzero : fragment.toNat ≠ 0 := fun h => hzero (UInt8.toNat_inj.mp h)
    rw [if_neg hzero, if_neg hnonzero, List.map_reverse, decimal_base, ← fragmentDigits_eq hsmall]
    rfl

theorem numeral_length_octet (ip : Ip) (i : ℕ) : (decimal.numeral (octet ip i)).length ≤ 3 := by
  rw [decimal.numeral_length]
  refine decimal.digits_length_le (by decide) (lt_trans (Nat.mod_lt _ (by decide)) ?_)
  decide

theorem masked (value : UInt32) : (value &&& 0xFF).toUInt8 = value.toUInt8 := by
  rw [← UInt8.toNat_inj, UInt32.toNat_toUInt8, UInt32.toNat_toUInt8, UInt32.toNat_and]
  show (value.toNat &&& 2 ^ 8 - 1) % 256 = _
  rw [Nat.and_two_pow_sub_one_eq_mod]
  exact Nat.mod_mod _ _

theorem shifted_octet (h : i < 4) : (ip >>> (UInt32.ofNat (3 - i) * 8)).toUInt8.toNat = octet ip i := by
  rw [UInt32.toNat_toUInt8, UInt32.toNat_shiftRight, Nat.shiftRight_eq_div_pow, octet]
  interval_cases i <;> rfl

theorem ipToString_eq (ip : Ip) :
    ipToString ip = decimal.numeral (octet ip 0) ++ 46 :: (decimal.numeral (octet ip 1) ++
      46 :: (decimal.numeral (octet ip 2) ++ 46 :: (decimal.numeral (octet ip 3) ++ [0]))) := by
  have hfield : ∀ i, i < 4 → fragmentToString (ip >>> (UInt32.ofNat (3 - i) * 8) &&& 0xFF).toUInt8 =
      decimal.numeral (octet ip i) := by
    intro i hi
    rw [masked, fragmentToString_eq, shifted_octet hi]
  have hrange : List.range 4 = [0, 1, 2, 3] := rfl
  rw [ipToString, hrange]
  simp only [List.flatMap_cons, List.flatMap_nil, hfield 0 (by decide), hfield 1 (by decide), hfield 2 (by decide),
    hfield 3 (by decide)]
  simp

/-- One field is read, and a dot behind it. -/
theorem readFields_numeral (ip : Ip) (n left : ℕ) (hc : ¬ IsDigit c) :
    readFields ip (decimal.numeral n ++ c :: rest) (left + 1) =
      readFields (ip ||| (UInt8.ofNat n).toUInt32 <<< (UInt32.ofNat left * 8)) (if c = 46 then rest else c :: rest)
        left := by
  have hnumber : readNumber 0 (decimal.numeral n ++ c :: rest) = (UInt8.ofNat n, c :: rest) :=
    readNumber_digits (decimal.readFrom_numeral n) hc
  rw [readFields, hnumber]
  rfl

theorem octets_joined (ip : Ip) :
    (UInt8.ofNat (octet ip 0)).toUInt32 <<< 24 ||| (UInt8.ofNat (octet ip 1)).toUInt32 <<< 16 |||
      (UInt8.ofNat (octet ip 2)).toUInt32 <<< 8 ||| (UInt8.ofNat (octet ip 3)).toUInt32 = ip := by
  have hbyte : ∀ i, i < 4 → UInt8.ofNat (octet ip i) = (ip >>> (UInt32.ofNat (3 - i) * 8)).toUInt8 := by
    intro i hi
    rw [← shifted_octet hi, UInt8.ofNat_toNat]
  have hlast : ip >>> (UInt32.ofNat (3 - 3) * 8) = ip := by
    rw [← UInt32.toNat_inj, UInt32.toNat_shiftRight]
    rfl
  rw [hbyte 0 (by decide), hbyte 1 (by decide), hbyte 2 (by decide), hbyte 3 (by decide), hlast]
  exact be32_parts ip

/-- Whatever lies behind the terminator. -/
theorem stringToIp_ipToString (ip : Ip) (behind : List UInt8) : stringToIp (ipToString ip ++ behind) = ip := by
  have hlast : (UInt8.ofNat (octet ip 3)).toUInt32 <<< (UInt32.ofNat 0 * 8) = (UInt8.ofNat (octet ip 3)).toUInt32 := by
    rw [← UInt32.toNat_inj, UInt32.toNat_shiftLeft]
    exact Nat.mod_eq_of_lt (UInt32.toNat_lt _)
  rw [ipToString_eq, stringToIp]
  simp only [List.append_assoc, List.cons_append, List.nil_append]
  rw [readFields_numeral _ _ _ (by decide), if_pos rfl, readFields_numeral _ _ _ (by decide), if_pos rfl,
    readFields_numeral _ _ _ (by decide), if_pos rfl, readFields_numeral _ _ _ (by decide), if_neg (by decide),
    readFields, hlast, UInt32.zero_or]
  exact octets_joined ip

/-- `ip_to_string` and `string_to_ip`, for every address. -/
theorem ip_text_round_trip :
    (∀ ip, ∃ text, ipToString ip = text ++ [0] ∧ text.length ≤ 15 ∧ IsDotted ip text ∧
      ∀ behind, stringToIp (ipToString ip ++ behind) = ip) ∧
      Function.Injective ipToString := by
  constructor
  · intro ip
    refine ⟨decimal.numeral (octet ip 0) ++ 46 :: (decimal.numeral (octet ip 1) ++
      46 :: (decimal.numeral (octet ip 2) ++ 46 :: decimal.numeral (octet ip 3))), ?_, ?_, ?_, ?_⟩
    · rw [ipToString_eq]
      simp only [List.append_assoc, List.cons_append]
    · have hzero := numeral_length_octet ip 0
      have hone := numeral_length_octet ip 1
      have htwo := numeral_length_octet ip 2
      have hthree := numeral_length_octet ip 3
      simp only [List.length_append, List.length_cons]
      omega
    · exact ⟨_, _, _, _, decimal.numeral_shortest _, decimal.numeral_shortest _, decimal.numeral_shortest _,
        decimal.numeral_shortest _, rfl⟩
    · exact stringToIp_ipToString ip
  · intro ip ip' hsame
    have hread := congrArg (fun text => stringToIp (text ++ [])) hsame
    rw [stringToIp_ipToString, stringToIp_ipToString] at hread
    exact hread

end MiniIp.Guarantees.IpText
