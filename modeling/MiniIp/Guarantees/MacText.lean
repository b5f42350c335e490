import Mathlib.Data.Vector.Basic
import MiniIp.Source.Text

/-!
# Hardware addresses as text

`mac_to_string` writes six pairs of hexadecimal digits with colons between them, in the case that is asked for, and
`string_to_mac` reads all six bytes back, whichever of the colons are left out. What the variable held before does not
matter.
-/

set_option autoImplicit false

namespace MiniIp.Guarantees.MacText

open MiniIp.Source

/-- The second string is the first without some of its colons. -/
inductive DropsColons : List UInt8 → List UInt8 → Prop
  | nil : DropsColons [] []
  | keep (c : UInt8) {string thinned : List UInt8} (rest : DropsColons string thinned) :
      DropsColons (c :: string) (c :: thinned)
  | drop {string thinned : List UInt8} (rest : DropsColons string thinned) : DropsColons (58 :: string) thinned

/-- Capitals stand in a string of capitals only, small letters in the other one. -/
structure InCase (lowercase : Bool) (c : UInt8) : Prop where
  capital : 65 ≤ c → c ≤ 90 → lowercase = false
  small : 97 ≤ c → c ≤ 122 → lowercase = true

/-- One digit of an address. -/
def hexChar (n : ℕ) (lowercase : Bool) : UInt8 := hexTable.getD n 0 ||| if lowercase then caseBit else 0

/-- The bytes of the second address at these places, the others of the first. -/
def overwrite (garbage mac : Mac) (places : List (Fin 6)) : Mac :=
  places.foldl (fun (result : Mac) (i : Fin 6) => setByte result i (mac.address.get i)) garbage

/-- What is written from the byte at the first of these places on. -/
def written (mac : Mac) (lowercase : Bool) (places : List (Fin 6)) : List UInt8 :=
  places.flatMap (placeToString mac (if lowercase then caseBit else 0)) ++ [0]

variable {mac garbage : Mac} {lowercase : Bool} {string thinned : List UInt8} {places : List (Fin 6)} {c : UInt8}
  {n : ℕ}

/-- The digits of both alphabets; '0' to '9' have the bit already that makes a letter small. -/
theorem hexChar_spec (n : Fin 16) (lowercase : Bool) :
    charToHex (hexChar n lowercase) = UInt8.ofNat n ∧ hexChar n lowercase ≠ 0 ∧ hexChar n lowercase ≠ 58 ∧
      (65 ≤ hexChar n lowercase → hexChar n lowercase ≤ 90 → lowercase = false) ∧
      (97 ≤ hexChar n lowercase → hexChar n lowercase ≤ 122 → lowercase = true) := by
  revert n lowercase
  decide

theorem nibbles_joined (byte : UInt8) :
    (byte >>> 0 &&& (0xF : UInt8)) ||| (byte >>> 4 &&& (0xF : UInt8)) <<< (4 : UInt8) = byte := by
  have hall : ∀ n : Fin 256, (UInt8.ofNat n >>> 0 &&& (0xF : UInt8)) |||
      (UInt8.ofNat n >>> 4 &&& (0xF : UInt8)) <<< (4 : UInt8) = UInt8.ofNat n := by
    decide +kernel
  have hbyte := hall ⟨byte.toNat, byte.toNat_lt⟩
  rwa [UInt8.ofNat_toNat] at hbyte

theorem nibble_lt (byte : UInt8) : (byte &&& 0xF).toNat < 16 := by
  have hand : (byte &&& 0xF).toNat ≤ 15 := by
    rw [UInt8.toNat_and]
    exact Nat.and_le_right
  omega

/-- The two digits of a byte. -/
theorem byteToString_spec (byte : UInt8) (lowercase : Bool) :
    ∃ high low, byteToString byte (if lowercase then caseBit else 0) = [high, low] ∧ high ≠ 0 ∧ high ≠ 58 ∧ low ≠ 0 ∧
      low ≠ 58 ∧ InCase lowercase high ∧ InCase lowercase low ∧ charToHex low ||| charToHex high <<< 4 = byte := by
  have hhigh := hexChar_spec ⟨_, nibble_lt (byte >>> 4)⟩ lowercase
  have hlow := hexChar_spec ⟨_, nibble_lt (byte >>> 0)⟩ lowercase
  refine ⟨_, _, rfl, hhigh.2.1, hhigh.2.2.1, hlow.2.1, hlow.2.2.1, ⟨hhigh.2.2.2.1, hhigh.2.2.2.2⟩,
    ⟨hlow.2.2.2.1, hlow.2.2.2.2⟩, ?_⟩
  have hhigh' := hhigh.1
  have hlow' := hlow.1
  rw [UInt8.ofNat_toNat] at hhigh' hlow'
  have hjoined := nibbles_joined byte
  rw [← hhigh', ← hlow'] at hjoined
  exact hjoined

theorem dropsColons_self (string : List UInt8) : DropsColons string string := by
  induction string with
  | nil => exact .nil
  | cons c string ih => exact .keep c ih

/-- Other characters stay. -/
theorem DropsColons.of_ne (h : DropsColons (c :: string) thinned) (hc : c ≠ 58) :
    ∃ thinned', thinned = c :: thinned' ∧ DropsColons string thinned' := by
  cases h with
  | keep _ rest => exact ⟨_, rfl, rest⟩
  | drop rest => exact absurd rfl hc

/-- A colon, there or not, is skipped before anything else. -/
theorem DropsColons.skip (h : DropsColons (58 :: c :: string) thinned) (hc : c ≠ 58) (behind : List UInt8) :
    ∃ thinned', DropsColons (c :: string) thinned' ∧
      (if currentChar (thinned ++ behind) = 58 then (thinned ++ behind).tail else thinned ++ behind) =
        thinned' ++ behind := by
  cases h with
  | keep _ rest => exact ⟨_, rest, rfl⟩
  | drop rest =>
    obtain ⟨thinned', rfl, -⟩ := DropsColons.of_ne rest hc
    exact ⟨_, rest, if_neg hc⟩

/-- What follows a byte begins with no colon. -/
theorem written_head (mac : Mac) (lowercase : Bool) (places : List (Fin 6)) :
    ∃ c string, written mac lowercase places = c :: string ∧ c ≠ 58 := by
  cases places with
  | nil => exact ⟨0, [], rfl, by decide⟩
  | cons i places =>
    obtain ⟨high, low, htext, -, hhigh, -⟩ := byteToString_spec (mac.address.get i) lowercase
    unfold written
    rw [List.flatMap_cons, placeToString, htext]
    exact ⟨_, _, rfl, hhigh⟩

theorem written_cons (mac : Mac) (lowercase : Bool) (i : Fin 6) (places : List (Fin 6)) :
    written mac lowercase (i :: places) = byteToString (mac.address.get i) (if lowercase then caseBit else 0) ++
      ((if i ≠ 5 then [58] else []) ++ written mac lowercase places) := by
  unfold written
  rw [List.flatMap_cons, placeToString, List.append_assoc, List.append_assoc]

/-- The bytes are read one after another. -/
theorem readAddress_thinned (garbage : Mac) (h : DropsColons (written mac lowercase places) thinned)
    (behind : List UInt8) : readAddress garbage (thinned ++ behind) places = overwrite garbage mac places := by
  induction places generalizing garbage thinned with
  | nil => rfl
  | cons i places ih =>
    obtain ⟨high, low, htext, hhigh, hhigh', hlow, hlow', -, -, hjoined⟩ :=
      byteToString_spec (mac.address.get i) lowercase
    obtain ⟨c, string, hnext, hc⟩ := written_head mac lowercase places
    rw [written_cons, htext, hnext, List.cons_append, List.cons_append, List.nil_append] at h
    obtain ⟨thinned, rfl, hsecond⟩ := DropsColons.of_ne h hhigh'
    obtain ⟨thinned, rfl, hafter⟩ := DropsColons.of_ne hsecond hlow'
    have hrest : ∃ thinned', DropsColons (c :: string) thinned' ∧
        (if currentChar (thinned ++ behind) = 58 then (thinned ++ behind).tail else thinned ++ behind) =
          thinned' ++ behind := by
      split at hafter
      · exact DropsColons.skip hafter hc behind
      · obtain ⟨thinned', rfl, hthinned⟩ := DropsColons.of_ne hafter hc
        exact ⟨_, .keep c hthinned, if_neg hc⟩
    obtain ⟨thinned', hthinned, hskip⟩ := hrest
    have hstep : readAddress garbage (high :: low :: thinned ++ behind) (i :: places) = _ :=
      if_neg fun hzero => hzero.elim hhigh hlow
    rw [hstep]
    show readAddress (setByte garbage i (charToHex low ||| charToHex high <<< 4))
      (if currentChar (thinned ++ behind) = 58 then (thinned ++ behind).tail else thinned ++ behind) places = _
    rw [hjoined, hskip]
    exact ih (setByte garbage i (mac.address.get i)) (hnext ▸ hthinned)

theorem setByte_get (mac : Mac) (i j : Fin 6) (byte : UInt8) :
    (setByte mac i byte).address.get j = byte ∧ i = j ∨
      (setByte mac i byte).address.get j = mac.address.get j ∧ i ≠ j := by
  by_cases hsame : i = j
  · subst hsame
    exact .inl ⟨Vector.getElem_set_self i.isLt, rfl⟩
  · exact .inr ⟨Vector.getElem_set_ne i.isLt j.isLt fun h => hsame (Fin.ext h), hsame⟩

/-- A byte that has been right stays so. -/
theorem overwrite_get (garbage mac : Mac) (j : Fin 6)
    (h : j ∈ places ∨ garbage.address.get j = mac.address.get j) :
    (overwrite garbage mac places).address.get j = mac.address.get j := by
  induction places generalizing garbage with
  | nil => exact h.resolve_left List.not_mem_nil
  | cons i places ih =>
    apply ih (setByte garbage i (mac.address.get i))
    rcases setByte_get garbage i j (mac.address.get i) with ⟨hset, rfl⟩ | ⟨hset, hother⟩
    · exact .inr hset
    · rw [hset]
      rcases h with hmem | hright
      · exact .inl ((List.mem_cons.mp hmem).resolve_left fun heq => hother heq.symm)
      · exact .inr hright

theorem overwrite_all (garbage mac : Mac) : overwrite garbage mac (List.finRange 6) = mac := by
  have hbytes : (overwrite garbage mac (List.finRange 6)).address = mac.address := by
    apply Vector.ext
    intro j hj
    exact overwrite_get garbage mac ⟨j, hj⟩ (.inl (List.mem_finRange _))
  generalize overwrite garbage mac (List.finRange 6) = result at hbytes
  cases result
  cases mac
  exact congrArg Mac.mk hbytes

/-- The characters before the terminator. -/
theorem written_chars (mac : Mac) (lowercase : Bool) (places : List (Fin 6)) :
    ∃ text, written mac lowercase places = text ++ [0] ∧
      text.length = 2 * places.length + places.countP (· ≠ 5) ∧ ∀ c ∈ text, c ≠ 0 ∧ InCase lowercase c := by
  induction places with
  | nil => exact ⟨[], rfl, rfl, fun c hc => absurd hc List.not_mem_nil⟩
  | cons i places ih =>
    obtain ⟨text, htext, hlength, hchars⟩ := ih
    obtain ⟨high, low, hbyte, hhigh, -, hlow, -, hhigh', hlow', -⟩ := byteToString_spec (mac.address.get i) lowercase
    have hcolon : InCase lowercase 58 := ⟨fun h => absurd h (by decide), fun h => absurd h (by decide)⟩
    rw [written_cons, hbyte, htext]
    by_cases hlast : i = 5
    · refine ⟨high :: low :: text, ?_, ?_, ?_⟩
      · simp [hlast]
      · simp only [List.length_cons, hlength, hlast]
        simp
        omega
      · simp only [List.forall_mem_cons]
        exact ⟨⟨hhigh, hhigh'⟩, ⟨hlow, hlow'⟩, hchars⟩
    · refine ⟨high :: low :: 58 :: text, ?_, ?_, ?_⟩
      · simp [hlast]
      · simp only [List.length_cons, hlength]
        simp [hlast]
        omega
      · simp only [List.forall_mem_cons]
        exact ⟨⟨hhigh, hhigh'⟩, ⟨hlow, hlow'⟩, ⟨by decide, hcolon⟩, hchars⟩

/-- `mac_to_string` and `string_to_mac`, for every address and both cases. -/
theorem mac_text_round_trip (mac : Mac) (lowercase : Bool) :
    (∃ text, macToString mac lowercase = text ++ [0] ∧ text.length = 17 ∧ ∀ c ∈ text, c ≠ 0 ∧ InCase lowercase c) ∧
      (∀ garbage behind, stringToMac garbage (macToString mac lowercase ++ behind) = mac) ∧
      ∀ thinned, DropsColons (macToString mac lowercase) thinned →
        ∀ garbage behind, stringToMac garbage (thinned ++ behind) = mac := by
  have hthinned : ∀ thinned, DropsColons (macToString mac lowercase) thinned →
      ∀ garbage behind, stringToMac garbage (thinned ++ behind) = mac := by
    intro thinned h garbage behind
    rw [stringToMac, readAddress_thinned garbage h behind, overwrite_all]
  refine ⟨?_, fun garbage behind => hthinned _ (dropsColons_self _) garbage behind, hthinned⟩
  obtain ⟨text, htext, hlength, hchars⟩ := written_chars mac lowercase (List.finRange 6)
  exact ⟨text, htext, hlength, hchars⟩

end MiniIp.Guarantees.MacText
