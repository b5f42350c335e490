import Mathlib.Data.Nat.Bitwise
import Mathlib.Tactic.SplitIfs
import MiniIp.Source.Dhcp

/-!
# The options of a DHCP packet

What `readOptions` stores in the record depends on the bytes of the payload, and a
field whose bit is set does not depend on what the record held before. What the bytes mean is the
matter of `OptionGrammar`.
-/

set_option autoImplicit false

namespace MiniIp.Invariant

open MiniIp.Source

variable {memory memory' : Memory} {start length pointer left : Int} {o o' : DhcpOptions}

/-- The inner loop skips zeros, as far as they reach. -/
theorem skipPadding_spec (memory : Memory) (left : ℕ) (pointer : Int) :
    ∃ padding : ℕ, padding ≤ left ∧
      skipPadding memory left pointer = (left - padding, pointer + padding) ∧
      (∀ i : Int, 0 ≤ i → i < padding → memory (pointer + i) = 0) ∧
      (padding < left → memory (pointer + padding) ≠ 0) := by
  induction left generalizing pointer with
  | zero => exact ⟨0, le_refl _, by simp [skipPadding], by omega, by omega⟩
  | succ left ih =>
    by_cases hzero : memory pointer = 0
    · obtain ⟨padding, hle, hskip, hzeros, hstops⟩ := ih (pointer + 1)
      refine ⟨padding + 1, by omega, ?_, fun i hi hpadding => ?_, fun hmore => ?_⟩
      · rw [skipPadding, if_pos hzero, hskip]
        congr 1
        · omega
        · omega
      · by_cases hfirst : i = 0
        · rw [hfirst, add_zero, hzero]
        · have hrest := hzeros (i - 1) (by omega) (by omega)
          rwa [show pointer + 1 + (i - 1) = pointer + i by omega] at hrest
      · have hnext := hstops (by omega)
        rwa [show pointer + 1 + (padding : Int) = pointer + (padding + 1 : ℕ) by omega] at hnext
    · refine ⟨0, by omega, by simp [skipPadding, hzero], by omega, fun _ => ?_⟩
      simpa using hzero

theorem testBit_of_or {mask bit k : ℕ} (hbit : bit.testBit k = false)
    (h : (mask ||| bit).testBit k = true) : mask.testBit k = true := by
  rwa [Nat.testBit_or, hbit, Bool.or_false] at h

/-- The two buffers hold the same bytes in a window. -/
def SameBytes (memory memory' : Memory) (start length : Int) : Prop :=
  ∀ i, start ≤ i → i < start + length → memory i = memory' i

theorem SameBytes.sub {start' length' : Int} (h : SameBytes memory memory' start length)
    (hstart : start ≤ start') (hend : start' + length' ≤ start + length) :
    SameBytes memory memory' start' length' := fun i hi hlt => h i (by omega) (by omega)

theorem SameBytes.readBe32 (h : SameBytes memory memory' pointer 4) :
    readBe32 memory pointer = readBe32 memory' pointer := by
  unfold MiniIp.Source.readBe32
  rw [h pointer (by omega) (by omega), h (pointer + 1) (by omega) (by omega),
    h (pointer + 2) (by omega) (by omega), h (pointer + 3) (by omega) (by omega)]

theorem skipPadding_congr {count : ℕ} (h : SameBytes memory memory' pointer count) :
    skipPadding memory count pointer = skipPadding memory' count pointer := by
  induction count generalizing pointer with
  | zero => rfl
  | succ count ih =>
    have hfirst := h pointer (by omega) (by omega)
    have hrest : SameBytes memory memory' (pointer + 1) count := h.sub (by omega) (by omega)
    rw [skipPadding, skipPadding, hfirst, ih hrest]

/-- An option is stored by its bytes. -/
theorem storeOption_congr {type : UInt8} {size value : Int} (h : SameBytes memory memory' value size) :
    storeOption memory type size value o = storeOption memory' type size value o := by
  by_cases hfour : size = 4
  · subst hfour
    rw [storeOption, storeOption, h.readBe32, h value (by omega) (by omega)]
  · by_cases hone : size = 1
    · subst hone
      simp [storeOption, h value (by omega) (by omega)]
    · simp [storeOption, hfour, hone]

/-- The loop looks at the bytes of the payload only. -/
theorem readOptions_congr (fuel : ℕ) (hpositive : 0 < left) (h : SameBytes memory memory' pointer left) :
    readOptions memory fuel pointer left o = readOptions memory' fuel pointer left o := by
  induction fuel generalizing pointer left o with
  | zero => rfl
  | succ fuel ih =>
    rw [readOptions, readOptions, h pointer (by omega) (by omega)]
    split
    · rfl
    · split
      · rfl
      · next hlong =>
        rw [h (pointer + 1) (by omega) (by omega)]
        simp only
        split
        · rfl
        · next hfits =>
          have hvalue : SameBytes memory memory' (pointer + 2) (memory' (pointer + 1)).toNat :=
            h.sub (by omega) (by omega)
          rw [storeOption_congr hvalue]
          split
          · rfl
          · next stored _ =>
            have hpadding : SameBytes memory memory' (pointer + 2 + (memory' (pointer + 1)).toNat)
                ((left - 2 - (memory' (pointer + 1)).toNat).toNat) := h.sub (by omega) (by omega)
            rw [skipPadding_congr hpadding]
            obtain ⟨padding, hle, hskip, _, _⟩ := skipPadding_spec memory'
              (left - 2 - (memory' (pointer + 1)).toNat).toNat
              (pointer + 2 + (memory' (pointer + 1)).toNat)
            rw [hskip]
            split
            · rfl
            · next hmore =>
              apply ih
              · simp only at hmore
                omega
              · exact h.sub (by omega) (by omega)

/-- The records agree in all that is marked as present, and if `stored` holds in the netmask. -/
structure SameMarked (stored : Prop) (o o' : DhcpOptions) : Prop where
  mask : o.mask = o'.mask
  yourIp : o.yourIp = o'.yourIp
  serverIp : o.mask.testBit 0 → o.serverIp = o'.serverIp
  netmask : stored ∨ o.mask.testBit 2 → o.netmask = o'.netmask
  messageType : o.mask.testBit 3 → o.messageType = o'.messageType
  leaseTime : o.mask.testBit 4 → o.leaseTime = o'.leaseTime

variable {stored : Prop}

/-- An option that both records have stored. -/
theorem storeOption_same (memory : Memory) (type : UInt8) (size value : Int) (h : SameMarked stored o o') :
    (storeOption memory type size value o = none ∧ storeOption memory type size value o' = none) ∨
      ∃ r r', storeOption memory type size value o = some r ∧
        storeOption memory type size value o' = some r' ∧ SameMarked stored r r' := by
  unfold storeOption
  split_ifs
  · exact .inl ⟨rfl, rfl⟩
  · refine .inr ⟨_, _, rfl, rfl, congrArg (· ||| optionNetmask) h.mask, h.yourIp, ?_, fun _ => rfl, ?_, ?_⟩
    · exact fun hbit => h.serverIp (testBit_of_or (by decide) hbit)
    · exact fun hbit => h.messageType (testBit_of_or (by decide) hbit)
    · exact fun hbit => h.leaseTime (testBit_of_or (by decide) hbit)
  · exact .inl ⟨rfl, rfl⟩
  · refine .inr ⟨_, _, rfl, rfl, congrArg (· ||| optionLeaseTime) h.mask, h.yourIp, ?_, ?_, ?_, fun _ => rfl⟩
    · exact fun hbit => h.serverIp (testBit_of_or (by decide) hbit)
    · exact fun hbit => h.netmask (hbit.imp_right (testBit_of_or (by decide)))
    · exact fun hbit => h.messageType (testBit_of_or (by decide) hbit)
  · exact .inl ⟨rfl, rfl⟩
  · refine .inr ⟨_, _, rfl, rfl, congrArg (· ||| optionServerIp) h.mask, h.yourIp, fun _ => rfl, ?_, ?_, ?_⟩
    · exact fun hbit => h.netmask (hbit.imp_right (testBit_of_or (by decide)))
    · exact fun hbit => h.messageType (testBit_of_or (by decide) hbit)
    · exact fun hbit => h.leaseTime (testBit_of_or (by decide) hbit)
  · exact .inl ⟨rfl, rfl⟩
  · refine .inr ⟨_, _, rfl, rfl, congrArg (· ||| optionMessageType) h.mask, h.yourIp, ?_, ?_, fun _ => rfl, ?_⟩
    · exact fun hbit => h.serverIp (testBit_of_or (by decide) hbit)
    · exact fun hbit => h.netmask (hbit.imp_right (testBit_of_or (by decide)))
    · exact fun hbit => h.leaseTime (testBit_of_or (by decide) hbit)
  · exact .inr ⟨o, o', rfl, rfl, h⟩

/-- The loop accepts the same packets, whatever the record held before. -/
theorem readOptions_same (memory : Memory) (fuel : ℕ) (pointer left : Int) (h : SameMarked stored o o') :
    (readOptions memory fuel pointer left o).1 = (readOptions memory fuel pointer left o').1 ∧
      SameMarked stored (readOptions memory fuel pointer left o).2 (readOptions memory fuel pointer left o').2 := by
  induction fuel generalizing pointer left o o' with
  | zero => exact ⟨rfl, h⟩
  | succ fuel ih =>
    rw [readOptions, readOptions]
    split
    · exact ⟨rfl, h⟩
    · split
      · exact ⟨rfl, h⟩
      · simp only
        split
        · exact ⟨rfl, h⟩
        · rcases storeOption_same memory (memory pointer) (memory (pointer + 1)).toNat (pointer + 2) h with
            hnone | hsome
          · rw [hnone.1, hnone.2]
            exact ⟨rfl, h⟩
          · obtain ⟨r, r', hr, hr', hstored⟩ := hsome
            rw [hr, hr']
            simp only
            split
            · exact ⟨rfl, hstored⟩
            · exact ih _ _ hstored

end MiniIp.Invariant
