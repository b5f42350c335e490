import MiniIp.Source.Tftp

/-!
# Bytes in a buffer

What is stored with `write_be16` and `memory_copy` is read back, and what a
receiver reads at an offset is the payload from there on.
-/

set_option autoImplicit false

namespace MiniIp.Invariant

open MiniIp.Source

section Other

variable {memory : Memory} {pointer place : Int}

theorem writeByte_other (value : UInt8) (h : place ≠ pointer) : writeByte value pointer memory place = memory place := by
  unfold writeByte
  rw [Function.update_of_ne h]

theorem writeBe16_other (value : UInt16) (h : place < pointer ∨ pointer + 2 ≤ place) :
    writeBe16 value pointer memory place = memory place := by
  unfold writeBe16
  rw [writeByte_other _ (by omega), writeByte_other _ (by omega)]

theorem writeBe32_other (value : UInt32) (h : place < pointer ∨ pointer + 4 ≤ place) :
    writeBe32 value pointer memory place = memory place := by
  unfold writeBe32
  rw [writeByte_other _ (by omega), writeByte_other _ (by omega), writeByte_other _ (by omega),
    writeByte_other _ (by omega)]

theorem writeBytes_other (bytes : List UInt8) (h : place < pointer ∨ pointer + bytes.length ≤ place) :
    writeBytes bytes pointer memory place = memory place := by
  induction bytes generalizing pointer memory with
  | nil => rfl
  | cons value rest ih =>
    rw [List.length_cons] at h
    rw [writeBytes, ih (by omega), writeByte_other _ (by omega)]

theorem writeMac_other (mac : Mac) (h : place < pointer ∨ pointer + 6 ≤ place) :
    writeMac mac pointer memory place = memory place := by
  apply writeBytes_other
  simpa using h

end Other

section Same

variable {memory : Memory} {pointer : Int}

theorem writeByte_same (value : UInt8) : writeByte value pointer memory pointer = value := by
  unfold writeByte
  rw [Function.update_self]

theorem writeBe16_same (value : UInt16) :
    writeBe16 value pointer memory pointer = (value >>> 8).toUInt8 ∧
      writeBe16 value pointer memory (pointer + 1) = value.toUInt8 := by
  unfold writeBe16
  constructor
  · rw [writeByte_other _ (by omega), writeByte_same]
  · rw [writeByte_same]

theorem writeBe32_same (value : UInt32) :
    writeBe32 value pointer memory pointer = (value >>> 24).toUInt8 ∧
      writeBe32 value pointer memory (pointer + 1) = (value >>> 16).toUInt8 ∧
      writeBe32 value pointer memory (pointer + 2) = (value >>> 8).toUInt8 ∧
      writeBe32 value pointer memory (pointer + 3) = value.toUInt8 := by
  unfold writeBe32
  constructor
  · rw [writeByte_other _ (by omega), writeByte_other _ (by omega), writeByte_other _ (by omega), writeByte_same]
  constructor
  · rw [writeByte_other _ (by omega), writeByte_other _ (by omega), writeByte_same]
  constructor
  · rw [writeByte_other _ (by omega), writeByte_same]
  · rw [writeByte_same]

end Same

theorem readBytes_writeBytes (bytes : List UInt8) (pointer : Int) (memory : Memory) :
    readBytes (writeBytes bytes pointer memory) pointer bytes.length = bytes := by
  induction bytes generalizing pointer memory with
  | nil => rfl
  | cons value rest ih =>
    rw [writeBytes, List.length_cons, readBytes, ih, writeBytes_other _ (by omega), writeByte,
      Function.update_self]

theorem readBytes_add (memory : Memory) (pointer : Int) (size more : ℕ) :
    readBytes memory pointer (size + more) = readBytes memory pointer size ++ readBytes memory (pointer + size) more := by
  induction size generalizing pointer with
  | zero => simp [readBytes]
  | succ size ih =>
    rw [Nat.succ_add, readBytes, ih, readBytes, List.cons_append]
    congr 3
    omega

theorem drop_readBytes (memory : Memory) (pointer : Int) (size k : ℕ) :
    (readBytes memory pointer size).drop k = readBytes memory (pointer + k) (size - k) := by
  induction k generalizing pointer size with
  | zero => simp
  | succ k ih =>
    cases size with
    | zero => simp [readBytes]
    | succ size =>
      rw [readBytes, List.drop_succ_cons, ih, Nat.add_sub_add_right]
      congr 1
      omega

theorem take_readBytes (memory : Memory) (pointer : Int) {size k : ℕ} (h : k ≤ size) :
    (readBytes memory pointer size).take k = readBytes memory pointer k := by
  obtain ⟨rest, rfl⟩ := Nat.exists_eq_add_of_le h
  rw [readBytes_add, List.take_left' (readBytes_length memory pointer k)]

/-- The two bytes of a 16-bit number are put together again. -/
theorem be16_parts (value : UInt16) :
    (value >>> 8).toUInt8.toUInt16 <<< 8 ||| value.toUInt8.toUInt16 = value := by
  apply UInt16.toNat_inj.mp
  have hlt := value.toNat_lt
  have hlow : value.toNat % 256 < 2 ^ 8 := Nat.mod_lt _ (by decide)
  have hor := Nat.shiftLeft_add_eq_or_of_lt hlow (value.toNat / 256)
  rw [Nat.shiftLeft_eq] at hor
  have hhigh : value.toNat / 256 % 256 = value.toNat / 256 := Nat.mod_eq_of_lt (by omega)
  have hshift : value.toNat / 256 * 2 ^ 8 % 65536 = value.toNat / 256 * 2 ^ 8 :=
    Nat.mod_eq_of_lt (by omega)
  have hsum := Nat.div_add_mod' value.toNat 256
  simp only [UInt16.toNat_or, UInt16.toNat_shiftLeft, UInt8.toNat_toUInt16, UInt16.toNat_toUInt8,
    UInt16.toNat_shiftRight, Nat.shiftRight_eq_div_pow, Nat.shiftLeft_eq]
  show value.toNat / 256 % 256 * 2 ^ 8 % 65536 ||| value.toNat % 256 = value.toNat
  rw [hhigh, hshift, ← hor]
  omega

theorem be32_bits (value : BitVec 32) :
    ((value >>> 24).setWidth 8).setWidth 32 <<< 24 ||| ((value >>> 16).setWidth 8).setWidth 32 <<< 16 |||
      ((value >>> 8).setWidth 8).setWidth 32 <<< 8 ||| (value.setWidth 8).setWidth 32 = value := by
  apply BitVec.eq_of_getElem_eq
  intro i hi
  have hrange : i < 8 ∨ (8 ≤ i ∧ i < 16) ∨ (16 ≤ i ∧ i < 24) ∨ 24 ≤ i := by omega
  simp only [BitVec.getElem_or, BitVec.getElem_shiftLeft, BitVec.getElem_setWidth, BitVec.getLsbD_setWidth,
    BitVec.getLsbD_ushiftRight]
  rcases hrange with h | h | h | h
  · have h1 : i < 16 := by omega
    have h2 : i < 24 := by omega
    simp [h, h1, h2]
    rfl
  · have h1 : ¬ i < 8 := by omega
    have h3 : i < 24 := by omega
    have h4 : i - 8 < 8 := by omega
    have h5 : 8 + (i - 8) = i := by omega
    simp [h.2, h1, h3, h4, h5]
    rfl
  · have h1 : ¬ i < 8 := by omega
    have h2 : ¬ i < 16 := by omega
    have h3 : ¬ i - 8 < 8 := by omega
    have h4 : i - 16 < 8 := by omega
    have h5 : 16 + (i - 16) = i := by omega
    simp [h.2, h1, h2, h3, h4, h5]
    rfl
  · have h1 : ¬ i < 8 := by omega
    have h2 : ¬ i < 16 := by omega
    have h3 : ¬ i < 24 := by omega
    have h4 : ¬ i - 8 < 8 := by omega
    have h5 : ¬ i - 16 < 8 := by omega
    have h6 : i - 24 < 8 := by omega
    have h7 : 24 + (i - 24) = i := by omega
    simp [h1, h2, h3, h4, h5, h6, h7]
    rfl

/-- The four bytes of a 32-bit number are put together again. -/
theorem be32_parts (value : UInt32) :
    (value >>> 24).toUInt8.toUInt32 <<< 24 ||| (value >>> 16).toUInt8.toUInt32 <<< 16 |||
      (value >>> 8).toUInt8.toUInt32 <<< 8 ||| value.toUInt8.toUInt32 = value := by
  apply UInt32.toBitVec_inj.mp
  exact be32_bits value.toBitVec

theorem readBe16_writeBe16 (value : UInt16) (pointer : Int) (memory : Memory) :
    readBe16 (writeBe16 value pointer memory) pointer = value := by
  have hbytes : writeBe16 value pointer memory pointer = _ ∧ writeBe16 value pointer memory (pointer + 1) = _ :=
    writeBe16_same value
  rw [readBe16, hbytes.1, hbytes.2, be16_parts]

theorem readBe32_writeBe32 (value : UInt32) (pointer : Int) (memory : Memory) :
    readBe32 (writeBe32 value pointer memory) pointer = value := by
  have hbytes : writeBe32 value pointer memory pointer = _ ∧ writeBe32 value pointer memory (pointer + 1) = _ ∧ _ :=
    writeBe32_same value
  rw [readBe32, hbytes.1, hbytes.2.1, hbytes.2.2.1, hbytes.2.2.2, be32_parts]

/-- A 16-bit number at the start of a piece of memory. -/
theorem readBe16_eq {memory : Memory} {pointer : Int} {size : ℕ} {value : UInt16} {rest : List UInt8}
    (h : readBytes memory pointer size = be16Bytes value ++ rest) : readBe16 memory pointer = value := by
  obtain ⟨n, rfl⟩ : ∃ n, size = n + 2 := by
    have hlength := congrArg List.length h
    simp only [readBytes_length, be16Bytes, List.length_append, List.length_cons, List.length_nil] at hlength
    exact ⟨size - 2, by omega⟩
  simp only [readBytes, be16Bytes, List.cons_append, List.nil_append, List.cons.injEq] at h
  rw [readBe16, h.1, h.2.1, be16_parts]

end MiniIp.Invariant
