import MiniIp.Invariant.Headers
import MiniIp.Library.OnesComplement
import MiniIp.Source.Dhcp

/-!
# Checksums

The checksum loops add in 32 bits. For what fits in a buffer nothing is lost there, so the bytes with their
checksum in place sum to `0xFFFF` in ones' complement.
-/

set_option autoImplicit false

namespace MiniIp.Invariant

open MiniIp.Source MiniIp.Library.OnesComplement

variable {memory : Memory} {pointer : Int} {size offset : ℕ}

theorem be16_toNat (high low : UInt8) :
    (high.toUInt16 <<< 8 ||| low.toUInt16).toNat = 256 * high.toNat + low.toNat := by
  have hhigh := high.toNat_lt
  have hlow : low.toNat < 2 ^ 8 := low.toNat_lt
  have hor := Nat.shiftLeft_add_eq_or_of_lt hlow high.toNat
  have hmod : high.toNat <<< 8 % 65536 = high.toNat <<< 8 := by
    rw [Nat.shiftLeft_eq]
    omega
  simp only [UInt16.toNat_or, UInt16.toNat_shiftLeft, UInt8.toNat_toUInt16]
  show high.toNat <<< 8 % 65536 ||| low.toNat = 256 * high.toNat + low.toNat
  rw [hmod, ← hor, Nat.shiftLeft_eq, Nat.mul_comm]

/-- The loop adds without overflow. -/
theorem sumWords_toNat {sum : UInt32} (h : sum.toNat + 65535 * ((size + 1) / 2) < 4294967296) :
    (sumWords memory size pointer sum).toNat = sum.toNat + wordSum (readBytes memory pointer size) := by
  fun_induction sumWords memory size pointer sum with
  | case1 pointer sum => rfl
  | case2 pointer sum =>
    have hbyte := (memory pointer).toNat_lt
    have hshift : ((memory pointer).toUInt32 <<< 8).toNat = 256 * (memory pointer).toNat := by
      simp only [UInt32.toNat_shiftLeft, UInt8.toNat_toUInt32]
      show (memory pointer).toNat <<< 8 % 4294967296 = 256 * (memory pointer).toNat
      rw [Nat.shiftLeft_eq]
      omega
    rw [UInt32.toNat_add, hshift]
    simp only [readBytes, wordSum]
    omega
  | case3 size pointer sum ih =>
    have hword : (readBe16 memory pointer).toUInt32.toNat =
        256 * (memory pointer).toNat + (memory (pointer + 1)).toNat := by
      rw [UInt16.toNat_toUInt32, readBe16, be16_toNat]
    have hlt := word_lt (memory pointer) (memory (pointer + 1))
    have hsum : (sum + (readBe16 memory pointer).toUInt32).toNat =
        sum.toNat + (256 * (memory pointer).toNat + (memory (pointer + 1)).toNat) := by
      rw [UInt32.toNat_add, hword]
      omega
    have hnext : pointer + 1 + 1 = pointer + 2 := by omega
    have hrounds : (size + 2 + 1) / 2 = (size + 1) / 2 + 1 := by omega
    rw [ih (by omega), hsum]
    simp only [readBytes, wordSum, hnext]
    omega

theorem carryRound_toNat (sum : UInt32) :
    ((sum &&& (0xFFFF : UInt32)) + (sum >>> 16)).toNat = sum.toNat % 65536 + sum.toNat / 65536 := by
  have hlt := sum.toNat_lt
  have hlow : (sum &&& (0xFFFF : UInt32)).toNat = sum.toNat % 65536 := by
    rw [UInt32.toNat_and]
    exact Nat.and_two_pow_sub_one_eq_mod sum.toNat 16
  have hhigh : (sum >>> 16).toNat = sum.toNat / 65536 := by
    rw [UInt32.toNat_shiftRight]
    exact Nat.shiftRight_eq_div_pow sum.toNat 16
  rw [UInt32.toNat_add, hlow, hhigh]
  omega

/-- Two rounds add all carries of a 32-bit sum. -/
theorem foldCarry_toNat (sum : UInt32) : (foldCarry sum).toNat = folded sum.toNat := by
  have hlt := sum.toNat_lt
  unfold foldCarry
  dsimp only
  rw [carryRound_toNat, carryRound_toNat, ← folded_carry sum.toNat, ← folded_carry (_ + _), folded_of_lt]
  omega

theorem computeChecksum_toNat {sum : UInt32} (h : sum.toNat + 65535 * ((size + 1) / 2) < 4294967296) :
    (computeChecksum memory pointer size sum).toNat =
      65535 - folded (sum.toNat + wordSum (readBytes memory pointer size)) := by
  have hle := folded_le (sum.toNat + wordSum (readBytes memory pointer size))
  have hmod : (foldCarry (sumWords memory size pointer sum)).toUInt16.toNat =
      folded (sum.toNat + wordSum (readBytes memory pointer size)) := by
    rw [UInt32.toNat_toUInt16, foldCarry_toNat, sumWords_toNat h]
    omega
  rw [computeChecksum, UInt16.toNat_not, hmod]
  rfl

/-- A 16-bit field at an even offset is one of the words. -/
theorem wordSum_field (heven : offset % 2 = 0) (hroom : offset + 2 ≤ size) :
    wordSum (readBytes memory pointer size) = wordSum (readBytes memory pointer offset) +
      (readBe16 memory (pointer + offset)).toNat +
        wordSum (readBytes memory (pointer + offset + 2) (size - offset - 2)) := by
  obtain ⟨rest, rfl⟩ := Nat.exists_eq_add_of_le hroom
  have hrest : offset + 2 + rest - offset - 2 = rest := by omega
  have hlength : (readBytes memory pointer offset).length % 2 = 0 := by
    rw [readBytes_length]
    exact heven
  have hnext : pointer + offset + 1 + 1 = pointer + offset + 2 := by omega
  have hafter : readBytes memory (pointer + offset) (2 + rest) =
      memory (pointer + offset) :: memory (pointer + offset + 1) :: readBytes memory (pointer + offset + 2) rest := by
    rw [Nat.add_comm, readBytes, readBytes, hnext]
  rw [hrest, Nat.add_assoc offset, readBytes_add, wordSum_append hlength, hafter, wordSum, readBe16, be16_toNat]
  omega

theorem wordSum_writeBe16 {value : UInt16} (heven : offset % 2 = 0) (hroom : offset + 2 ≤ size)
    (hzero : readBe16 memory (pointer + offset) = 0) :
    wordSum (readBytes (writeBe16 value (pointer + offset) memory) pointer size) =
      wordSum (readBytes memory pointer size) + value.toNat := by
  have hfront : readBytes (writeBe16 value (pointer + offset) memory) pointer offset =
      readBytes memory pointer offset := by
    apply readBytes_congr
    intro x _ hlt
    exact writeBe16_other value (.inl hlt)
  have hback : readBytes (writeBe16 value (pointer + offset) memory) (pointer + offset + 2) (size - offset - 2) =
      readBytes memory (pointer + offset + 2) (size - offset - 2) := by
    apply readBytes_congr
    intro x hle _
    exact writeBe16_other value (.inr hle)
  have hold : wordSum (readBytes memory pointer size) = _ := wordSum_field heven hroom
  rw [hold, wordSum_field heven hroom, hfront, hback, readBe16_writeBe16, hzero]
  simp only [UInt16.toNat_zero]
  omega

/-- A checksum that is put where a zero was makes the sum of what it covers `0xFFFF`. -/
theorem checksum_valid {sum : UInt32} (hsum : sum.toNat + 65535 * ((size + 1) / 2) < 4294967296) (heven : offset % 2 = 0)
    (hroom : offset + 2 ≤ size) (hzero : readBe16 memory (pointer + offset) = 0) :
    folded (sum.toNat + wordSum (readBytes (writeBe16 (computeChecksum memory pointer size sum) (pointer + offset)
      memory) pointer size)) = 65535 := by
  rw [wordSum_writeBe16 heven hroom hzero, computeChecksum_toNat hsum, ← Nat.add_assoc]
  exact folded_complement _

theorem onesSum_checksum (hsize : size ≤ 1024) (heven : offset % 2 = 0) (hroom : offset + 2 ≤ size)
    (hzero : readBe16 memory (pointer + offset) = 0) :
    onesSum (readBytes (writeBe16 (computeChecksum memory pointer size 0) (pointer + offset) memory) pointer size) =
      0xFFFF := by
  have hsum : (0 : UInt32).toNat + 65535 * ((size + 1) / 2) < 4294967296 := by
    rw [UInt32.toNat_zero]
    omega
  have hvalid := checksum_valid hsum heven hroom hzero
  rw [UInt32.toNat_zero, Nat.zero_add] at hvalid
  rw [onesSum_eq]
  exact hvalid

/-- The 20 bytes of the header that `ip_send` writes. -/
def ipHeaderBytes (length checksum : UInt16) (protocol : UInt8) (ourIp ip : Ip) : List UInt8 :=
  [0x45, 0] ++ be16Bytes length ++ [0, 0, 0x40, 0, 0xFF, protocol] ++ be16Bytes checksum ++ be32Bytes ourIp ++ be32Bytes ip

theorem readBytes_ipHeader (memory : Memory) (pointer : Int) (length : UInt16) (protocol : UInt8) (ourIp ip : Ip) :
    ∃ checksum, readBytes (writeIpHeader length protocol ourIp ip pointer memory) pointer 20 =
      ipHeaderBytes length checksum protocol ourIp ip := by
  refine ⟨computeIpChecksum (writeIpFields length protocol ourIp ip pointer memory) pointer, ?_⟩
  unfold writeIpHeader
  dsimp only
  generalize computeIpChecksum _ _ = checksum
  rw [writeIpFields_eq]
  simp [readBytes, ipHeaderBytes, be16Bytes, be32Bytes, writeBe16, writeBe32, writeByte, Function.update_apply,
    Int.add_assoc, ipFlagDontFragment]
  decide

/-- The checksum of the header is right. -/
theorem onesSum_ipHeader (memory : Memory) (pointer : Int) (length : UInt16) (protocol : UInt8) (ourIp ip : Ip) :
    onesSum (readBytes (writeIpHeader length protocol ourIp ip pointer memory) pointer 20) = 0xFFFF := by
  have hzero : readBe16 (writeIpFields length protocol ourIp ip pointer memory) (pointer + (10 : ℕ)) = 0 := by
    rw [writeIpFields_eq]
    simp [readBe16, writeBe16, writeBe32, writeByte, Int.add_assoc]
  exact onesSum_checksum (by decide) (by decide) (by decide) hzero

end MiniIp.Invariant
