import Mathlib.Tactic.Ring
import MiniIp.Invariant.Buffer

/-!
# The three headers

Every layer puts its header in front of the packet it is given. `udpFramed`, `ipFramed`
and `macFramed` are what they make of it. Each header is written whole, so what is in the window
afterwards depends on what was in the window before, and on nothing else in the buffer.
-/

set_option autoImplicit false

namespace MiniIp.Invariant

open MiniIp.Source

/-- The packet with the header of `udp_send_zero_copy`. -/
def udpFramed (sourcePort destPort : Port) (ourIp ip : Ip) (p : NetworkPacket) : NetworkPacket :=
  let pushed : NetworkPacket := { p with
    index := p.index - udpHeaderSize
    length := p.length + udpHeaderSize
    data := writeUdpFields sourcePort destPort (UInt16.ofInt (p.length + udpHeaderSize))
      (p.index - udpHeaderSize) p.data }
  { pushed with data := writeBe16 (computeUdpChecksum pushed ourIp ip) (pushed.index + 6) pushed.data }

/-- The packet with the header of `ip_send`. -/
def ipFramed (protocol : UInt8) (ourIp ip : Ip) (p : NetworkPacket) : NetworkPacket :=
  { p with
    index := p.index - ipHeaderSize
    length := p.length + ipHeaderSize
    data := writeIpHeader (UInt16.ofInt (p.length + ipHeaderSize)) protocol ourIp ip (p.index - ipHeaderSize)
      p.data }

/-- The packet with the header of `mac_send`. -/
def macFramed (mac ourMac : Mac) (etherType : UInt16) (p : NetworkPacket) : NetworkPacket :=
  { p with
    length := p.length + macHeaderSize
    index := p.index - macHeaderSize
    data := writeBe16 etherType (p.index - macHeaderSize + 12)
      (writeMac ourMac (p.index - macHeaderSize + 6) (writeMac mac (p.index - macHeaderSize) p.data)) }

/-- Two packets with the same window and the same bytes in it. -/
structure SameWindow (k k' : NetworkPacket) : Prop where
  index : k'.index = k.index
  length : k'.length = k.length
  data : ∀ x, k.index ≤ x → x < k.index + k.length → k'.data x = k.data x

/-- Two buffers with the same bytes at the places in `P`. -/
def Agree (P : Int → Prop) (memory memory' : Memory) : Prop := ∀ x, P x → memory' x = memory x

variable {P Q : Int → Prop} {memory memory' : Memory} {k k' : NetworkPacket}

section Agree

variable (pointer : Int) (h : Agree P memory memory')

include h

theorem Agree.weaken (hQ : ∀ x, Q x → P x) : Agree Q memory memory' := fun x hx => h x (hQ x hx)

theorem Agree.writeByte (value : UInt8) :
    Agree (fun x => x = pointer ∨ P x) (writeByte value pointer memory) (writeByte value pointer memory') := by
  intro x hx
  unfold Source.writeByte
  by_cases heq : x = pointer
  · rw [heq, Function.update_self, Function.update_self]
  · rw [Function.update_of_ne heq, Function.update_of_ne heq]
    exact h x (hx.resolve_left heq)

theorem Agree.writeBe16 (value : UInt16) :
    Agree (fun x => pointer ≤ x ∧ x < pointer + 2 ∨ P x) (writeBe16 value pointer memory)
      (writeBe16 value pointer memory') := by
  apply ((h.writeByte pointer _).writeByte (pointer + 1) _).weaken
  intro x hx
  rcases hx with hin | hold
  · omega
  · exact .inr (.inr hold)

theorem Agree.writeBe32 (value : UInt32) :
    Agree (fun x => pointer ≤ x ∧ x < pointer + 4 ∨ P x) (writeBe32 value pointer memory)
      (writeBe32 value pointer memory') := by
  have hbytes := (((h.writeByte pointer (value >>> 24).toUInt8).writeByte (pointer + 1)
    (value >>> 16).toUInt8).writeByte (pointer + 2) (value >>> 8).toUInt8).writeByte (pointer + 3) value.toUInt8
  apply hbytes.weaken
  intro x hx
  rcases hx with hin | hold
  · omega
  · exact .inr (.inr (.inr (.inr hold)))

end Agree

theorem Agree.writeBytes (h : Agree P memory memory') (pointer : Int) (bytes : List UInt8) :
    Agree (fun x => pointer ≤ x ∧ x < pointer + bytes.length ∨ P x) (writeBytes bytes pointer memory)
      (writeBytes bytes pointer memory') := by
  induction bytes generalizing pointer memory memory' P with
  | nil =>
    apply h.weaken
    intro x hx
    rcases hx with hin | hold
    · simp only [List.length_nil] at hin
      omega
    · exact hold
  | cons value rest ih =>
    apply (ih (h.writeByte pointer value) (pointer + 1)).weaken
    intro x hx
    rcases hx with hin | hold
    · simp only [List.length_cons] at hin
      omega
    · exact .inr (.inr hold)

theorem Agree.writeMac (h : Agree P memory memory') (pointer : Int) (mac : Mac) :
    Agree (fun x => pointer ≤ x ∧ x < pointer + 6 ∨ P x) (writeMac mac pointer memory)
      (writeMac mac pointer memory') := by
  apply (h.writeBytes pointer mac.address.toList).weaken
  intro x hx
  simpa using hx

/-- The header of MAC lies in front of the packet. -/
theorem macFramed_data (mac ourMac : Mac) (etherType : UInt16) {place : Int} (h : k.index ≤ place) :
    (macFramed mac ourMac etherType k).data place = k.data place := by
  simp (disch := omega) only [macFramed, macHeaderSize, writeBe16_other, writeMac_other]

/-- The header of UDP lies in front of the packet. -/
theorem udpFramed_data (sourcePort destPort : Port) (ourIp ip : Ip) {place : Int} (h : k.index ≤ place) :
    (udpFramed sourcePort destPort ourIp ip k).data place = k.data place := by
  simp (disch := omega) only [udpFramed, writeUdpFields, udpHeaderSize, writeBe16_other]

theorem readBytes_congr {pointer : Int} {size : ℕ}
    (h : ∀ x, pointer ≤ x → x < pointer + size → memory' x = memory x) :
    readBytes memory' pointer size = readBytes memory pointer size := by
  induction size generalizing pointer with
  | zero => rfl
  | succ size ih =>
    rw [readBytes, readBytes, h pointer (by omega) (by omega), ih]
    intro x hle hlt
    exact h x (by omega) (by omega)

theorem sumWords_congr {pointer : Int} {size : ℕ} (sum : UInt32)
    (h : ∀ x, pointer ≤ x → x < pointer + size → memory' x = memory x) :
    sumWords memory' size pointer sum = sumWords memory size pointer sum := by
  fun_induction sumWords memory size pointer sum with
  | case1 pointer sum => rfl
  | case2 pointer sum => rw [sumWords, h pointer (by omega) (by omega)]
  | case3 size pointer sum ih =>
    have hword : readBe16 memory' pointer = readBe16 memory pointer := by
      rw [readBe16, readBe16, h pointer (by omega) (by omega), h (pointer + 1) (by omega) (by omega)]
    rw [sumWords, hword]
    apply ih
    intro x hle hlt
    exact h x (by omega) (by omega)

theorem SameWindow.refl (k : NetworkPacket) : SameWindow k k := ⟨rfl, rfl, fun _ _ _ => rfl⟩

theorem SameWindow.payload (h : SameWindow k k') : k'.payload = k.payload := by
  unfold NetworkPacket.payload
  rw [h.index, h.length]
  apply readBytes_congr
  intro x hle hlt
  exact h.data x hle (by omega)

@[simp] theorem payload_length (k : NetworkPacket) : k.payload.length = k.length.toNat := readBytes_length _ _ _

/-- Behind its MAC header a frame is the packet it was made of. -/
theorem macFramed_payload (mac ourMac : Mac) (etherType : UInt16) (h : 0 ≤ k.length) :
    (macFramed mac ourMac etherType k).payload.drop 14 = k.payload := by
  have hindex : k.index - macHeaderSize + (14 : ℕ) = k.index := by
    rw [macHeaderSize]
    omega
  have hlength : (k.length + macHeaderSize).toNat - 14 = k.length.toNat := by
    rw [macHeaderSize]
    omega
  unfold NetworkPacket.payload
  rw [drop_readBytes]
  show readBytes (macFramed mac ourMac etherType k).data (k.index - macHeaderSize + (14 : ℕ))
    ((k.length + macHeaderSize).toNat - 14) = _
  rw [hindex, hlength]
  apply readBytes_congr
  intro x hle _
  exact macFramed_data mac ourMac etherType hle

theorem SameWindow.agree (h : SameWindow k k') :
    Agree (fun x => k.index ≤ x ∧ x < k.index + k.length) k.data k'.data :=
  fun x hx => h.data x hx.1 hx.2

theorem SameWindow.macFramed (h : SameWindow k k') (mac ourMac : Mac) (etherType : UInt16) :
    SameWindow (macFramed mac ourMac etherType k) (macFramed mac ourMac etherType k') where
  index := by simp only [Invariant.macFramed, h.index]
  length := by simp only [Invariant.macFramed, h.length]
  data := by
    intro x hle hlt
    simp only [Invariant.macFramed, macHeaderSize, h.index] at hle hlt ⊢
    have hheader := ((h.agree.writeMac (k.index - 14) mac).writeMac (k.index - 14 + 6) ourMac).writeBe16
      (k.index - 14 + 12) etherType
    apply hheader x
    omega

/-- Two assignments to the parts of a byte replace the byte. -/
theorem writeBits_twice {keep keep' value value' result : UInt8} (pointer : Int)
    (h : ∀ b : BitVec 8, (b &&& keep.toBitVec ||| value.toBitVec) &&& keep'.toBitVec ||| value'.toBitVec =
      result.toBitVec) :
    writeBits keep' value' pointer (writeBits keep value pointer memory) = writeByte result pointer memory := by
  have hbyte : (memory pointer &&& keep ||| value) &&& keep' ||| value' = result := by
    apply UInt8.toBitVec_inj.mp
    exact h (memory pointer).toBitVec
  unfold writeBits writeByte
  rw [Function.update_self, Function.update_idem, hbyte]

/-- The header of IP, with the first two bytes as a whole. -/
theorem writeIpFields_eq (length : UInt16) (protocol : UInt8) (sendersIp targetIp : Ip) (header : Int) :
    writeIpFields length protocol sendersIp targetIp header memory =
      writeBe32 targetIp (header + 16) (writeBe32 sendersIp (header + 12) (writeBe16 0 (header + 10)
        (writeBe16 ipFlagDontFragment (header + 6) (writeBe16 0 (header + 4) (writeBe16 length (header + 2)
        (writeByte protocol (header + 9) (writeByte 0xFF (header + 8) (writeByte 0 (header + 1)
        (writeByte 0x45 header memory))))))))) := by
  have hfirst : ∀ b : BitVec 8, (b &&& 0x0F ||| 0x40) &&& 0xF0 ||| 0x05 = 0x45 := by decide +kernel
  have hsecond : ∀ b : BitVec 8, (b &&& 0x03 ||| 0x00) &&& 0xFC ||| 0x00 = 0x00 := by decide +kernel
  have hversion : writeBits 0xF0 0x05 header (writeBits 0x0F 0x40 header memory) = writeByte 0x45 header memory :=
    writeBits_twice header hfirst
  have hservice : ∀ m, writeBits 0xFC 0x00 (header + 1) (writeBits 0x03 0x00 (header + 1) m) =
      writeByte 0 (header + 1) m := fun _ => writeBits_twice (header + 1) hsecond
  unfold writeIpFields
  dsimp only
  rw [hversion, hservice]

/-- The header of IP lies in front of the packet. -/
theorem ipFramed_data (protocol : UInt8) (ourIp ip : Ip) {place : Int} (h : k.index ≤ place) :
    (ipFramed protocol ourIp ip k).data place = k.data place := by
  simp (disch := omega) only [ipFramed, writeIpHeader, writeIpFields_eq, ipHeaderSize, writeBe16_other, writeBe32_other,
    writeByte_other]

/-- Behind its header an IP packet is the packet it was made of. -/
theorem ipFramed_payload (protocol : UInt8) (ourIp ip : Ip) (h : 0 ≤ k.length) :
    (ipFramed protocol ourIp ip k).payload.drop 20 = k.payload := by
  have hindex : k.index - ipHeaderSize + (20 : ℕ) = k.index := by
    rw [ipHeaderSize]
    omega
  have hlength : (k.length + ipHeaderSize).toNat - 20 = k.length.toNat := by
    rw [ipHeaderSize]
    omega
  unfold NetworkPacket.payload
  rw [drop_readBytes]
  show readBytes (ipFramed protocol ourIp ip k).data (k.index - ipHeaderSize + (20 : ℕ))
    ((k.length + ipHeaderSize).toNat - 20) = _
  rw [hindex, hlength]
  apply readBytes_congr
  intro x hle _
  exact ipFramed_data protocol ourIp ip hle

/-- The header of IP is written whole. -/
theorem agree_ipFields (h : Agree P memory memory') (length : UInt16) (protocol : UInt8) (sendersIp targetIp : Ip)
    (header : Int) :
    Agree (fun x => header ≤ x ∧ x < header + 20 ∨ P x)
      (writeIpFields length protocol sendersIp targetIp header memory)
      (writeIpFields length protocol sendersIp targetIp header memory') := by
  rw [writeIpFields_eq, writeIpFields_eq]
  have hbytes := (((h.writeByte header 0x45).writeByte (header + 1) 0).writeByte (header + 8) 0xFF).writeByte
    (header + 9) protocol
  have hnumbers := ((((((hbytes.writeBe16 (header + 2) length).writeBe16 (header + 4) 0).writeBe16 (header + 6)
    ipFlagDontFragment).writeBe16 (header + 10) 0).writeBe32 (header + 12) sendersIp).writeBe32 (header + 16)
    targetIp)
  apply hnumbers.weaken
  intro x hx
  rcases hx with hin | hold
  · omega
  · simp only [hold, or_true]

theorem SameWindow.ipFramed (h : SameWindow k k') (protocol : UInt8) (ourIp ip : Ip) :
    SameWindow (ipFramed protocol ourIp ip k) (ipFramed protocol ourIp ip k') where
  index := by simp only [Invariant.ipFramed, h.index]
  length := by simp only [Invariant.ipFramed, h.length]
  data := by
    intro x hle hlt
    simp only [Invariant.ipFramed, writeIpHeader, ipHeaderSize, h.index, h.length] at hle hlt ⊢
    have hfields := agree_ipFields h.agree (UInt16.ofInt (k.length + 20)) protocol ourIp ip (k.index - 20)
    have hsum : computeIpChecksum (writeIpFields (UInt16.ofInt (k.length + 20)) protocol ourIp ip (k.index - 20)
        k'.data) (k.index - 20) = computeIpChecksum (writeIpFields (UInt16.ofInt (k.length + 20)) protocol ourIp ip
        (k.index - 20) k.data) (k.index - 20) := by
      unfold computeIpChecksum computeChecksum
      rw [sumWords_congr]
      intro y hley hlty
      exact hfields y (.inl ⟨hley, by omega⟩)
    rw [hsum]
    apply hfields.writeBe16 (k.index - 20 + 10)
    omega

theorem agree_udpFields (h : Agree P memory memory') (sourcePort destPort : Port) (length : UInt16) (header : Int) :
    Agree (fun x => header ≤ x ∧ x < header + 8 ∨ P x) (writeUdpFields sourcePort destPort length header memory)
      (writeUdpFields sourcePort destPort length header memory') := by
  have hfields := (((h.writeBe16 header sourcePort).writeBe16 (header + 2) destPort).writeBe16 (header + 4)
    length).writeBe16 (header + 6) 0
  apply hfields.weaken
  intro x hx
  rcases hx with hin | hold
  · omega
  · simp only [hold, or_true]

theorem ofInt_toNat (n : Int) : (UInt16.ofInt n).toNat = (n % 65536).toNat := by
  simp only [UInt16.ofInt, UInt16.toNat_ofNat']
  omega

/-- A length that is not negative is not made larger by its conversion to 16 bits. -/
theorem ofInt_toNat_le {n : Int} (h : 0 ≤ n) : ((UInt16.ofInt n).toNat : Int) ≤ n := by
  rw [ofInt_toNat]
  omega

theorem SameWindow.udpFramed (h : SameWindow k k') (sourcePort destPort : Port) (ourIp ip : Ip) :
    SameWindow (udpFramed sourcePort destPort ourIp ip k) (udpFramed sourcePort destPort ourIp ip k') where
  index := by simp only [Invariant.udpFramed, h.index]
  length := by simp only [Invariant.udpFramed, h.length]
  data := by
    intro x hle hlt
    simp only [Invariant.udpFramed, computeUdpChecksum, udpHeaderSize, h.index, h.length] at hle hlt ⊢
    have hfields := agree_udpFields h.agree sourcePort destPort (UInt16.ofInt (k.length + 8)) (k.index - 8)
    -- the window is not empty, so the checksum runs over bytes of the window only
    have hlength := ofInt_toNat_le (n := k.length + 8) (by omega)
    have hsum : ∀ sum, computeChecksum (writeUdpFields sourcePort destPort (UInt16.ofInt (k.length + 8)) (k.index - 8)
        k'.data) (k.index - 8) (UInt16.ofInt (k.length + 8)).toNat sum =
        computeChecksum (writeUdpFields sourcePort destPort (UInt16.ofInt (k.length + 8)) (k.index - 8) k.data)
          (k.index - 8) (UInt16.ofInt (k.length + 8)).toNat sum := by
      intro sum
      unfold computeChecksum
      rw [sumWords_congr]
      intro y hley hlty
      apply hfields y
      omega
    rw [hsum]
    apply hfields.writeBe16 (k.index - 8 + 6)
    omega

end MiniIp.Invariant
