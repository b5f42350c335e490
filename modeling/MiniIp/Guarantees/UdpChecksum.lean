import MiniIp.Invariant.FrameBytes
import MiniIp.Invariant.SoundRun

/-!
# The checksum of a UDP datagram

The ones' complement sum over pseudo header and datagram is `0xFFFF` for every datagram
(`onesSum_datagram`). But `compute_udp_checksum` (udp.c:69) returns the complement
of the sum as it is, where RFC 768 wants a computed zero to be sent as `0xFFFF`. The
field is zero exactly where the words sum to `0xFFFF` without it (`udp_checksum_valid_iff`).
-/

set_option autoImplicit false

namespace MiniIp.Guarantees.UdpChecksum

open MiniIp.Source MiniIp.Invariant MiniIp.Library.OnesComplement MiniIp.Library.Wp

/-- The pseudo header: both addresses, a zero, the protocol and the length of the datagram. -/
def pseudoHeader (ourIp ip : Ip) (length : UInt16) : List UInt8 :=
  be32Bytes ourIp ++ be32Bytes ip ++ [0, 17] ++ be16Bytes length

/-- The checksum in bytes 6 and 7 is there, and the sum over pseudo header and datagram is `0xFFFF`. -/
structure ValidChecksum (ourIp ip : Ip) (datagram : List UInt8) : Prop where
  present : (datagram.drop 6).take 2 ≠ [0, 0]
  sum : onesSum (pseudoHeader ourIp ip (UInt16.ofNat datagram.length) ++ datagram) = 0xFFFF

/-- The state in which `udp_send_zero_copy` calls `ip_send`. -/
def handedToIp (sourcePort destPort : Port) (ip : Ip) (p : PacketId) (s : Stack) : Stack :=
  (Stack.advanced s s.freeNetworkPackets
    [.window .udpSendZeroCopy ((s.packets p).index - udpHeaderSize) ((s.packets p).length + udpHeaderSize) udpHeaderSize,
      .udpSend sourcePort destPort ip (s.packets p).payload]).write p
    (udpFramed sourcePort destPort s.ourIp ip (s.packets p))

variable {s : Stack} {p : PacketId} {k : NetworkPacket} {sourcePort destPort : Port} {ourIp ip : Ip}
  {length checksum : UInt16} {payload : List UInt8}

theorem udpSendZeroCopy_hands (sourcePort destPort : Port) (ip : Ip) (p : PacketId) (s : Stack) :
    udpSendZeroCopy p sourcePort destPort ip s =
      ipSend p ip ipProtocolUdp (handedToIp sourcePort destPort ip p s) := by
  apply eq_of_wp
  intro Q E h
  unfold udpSendZeroCopy at h
  simp only [wp_bind, wp_getPacket, wp_emit, wp_modifyPacket, wp_recordWindow, wp_get, Stack.write_packets,
    Stack.observe_packets, Function.update_self] at h
  simp only [Stack.write, Stack.observe, Function.update_idem] at h
  exact h

theorem wordSum_be16 (value : UInt16) : wordSum (be16Bytes value) = value.toNat := by
  have hlt := value.toNat_lt
  have hhigh : (value >>> 8).toUInt8.toNat = value.toNat / 256 := by
    rw [UInt16.toNat_toUInt8, UInt16.toNat_shiftRight]
    show value.toNat >>> 8 % 256 = value.toNat / 256
    rw [Nat.shiftRight_eq_div_pow]
    omega
  have hlow : value.toUInt8.toNat = value.toNat % 256 := UInt16.toNat_toUInt8 value
  simp only [be16Bytes, wordSum, hhigh, hlow]
  omega

theorem wordSum_be32 (value : UInt32) :
    wordSum (be32Bytes value) = (value >>> 16).toNat + (value &&& (0xFFFF : UInt32)).toNat := by
  have hlt := value.toNat_lt
  have hshift : ∀ n : UInt32, n.toNat < 32 → (value >>> n).toNat = value.toNat / 2 ^ n.toNat := by
    intro n hn
    rw [UInt32.toNat_shiftRight, Nat.mod_eq_of_lt hn, Nat.shiftRight_eq_div_pow]
  have hlow : (value &&& (0xFFFF : UInt32)).toNat = value.toNat % 65536 := by
    rw [UInt32.toNat_and]
    exact Nat.and_two_pow_sub_one_eq_mod value.toNat 16
  simp only [be32Bytes, wordSum, UInt32.toNat_toUInt8, hlow, hshift 24 (by decide), hshift 16 (by decide),
    hshift 8 (by decide)]
  show 256 * (value.toNat / 2 ^ 24 % 256) + value.toNat / 2 ^ 16 % 256 +
    (256 * (value.toNat / 2 ^ 8 % 256) + value.toNat % 256 + 0) = value.toNat / 2 ^ 16 + value.toNat % 65536
  omega

theorem wordSum_pseudoHeader (ourIp ip : Ip) (length : UInt16) :
    wordSum (pseudoHeader ourIp ip length) =
      (ourIp >>> 16).toNat + (ourIp &&& (0xFFFF : Ip)).toNat + ((ip >>> 16).toNat + (ip &&& (0xFFFF : Ip)).toNat) + 17 +
        length.toNat := by
  unfold pseudoHeader
  have hprotocol : wordSum ([0, 17] : List UInt8) = 17 := rfl
  rw [wordSum_append (by simp [be32Bytes]), wordSum_append (by simp [be32Bytes]), wordSum_append (by simp [be32Bytes]),
    wordSum_be32, wordSum_be32, wordSum_be16, hprotocol]

/-- The checksum is one of the words. -/
theorem wordSum_udpHeader (sourcePort destPort : Port) (length checksum : UInt16) :
    wordSum (udpHeaderBytes sourcePort destPort length checksum) =
      wordSum (udpHeaderBytes sourcePort destPort length 0) + checksum.toNat := by
  unfold udpHeaderBytes
  have heven : (be16Bytes sourcePort ++ be16Bytes destPort ++ be16Bytes length).length % 2 = 0 := by
    simp only [List.length_append, be16Bytes_length]
  rw [wordSum_append heven, wordSum_append heven, wordSum_be16 checksum, wordSum_be16 0]
  rfl

/-- The words of pseudo header and datagram, the checksum zero. -/
def coveredWords (sourcePort destPort : Port) (ourIp ip : Ip) (payload : List UInt8) : List UInt8 :=
  let length := UInt16.ofNat (8 + payload.length)
  pseudoHeader ourIp ip length ++ (udpHeaderBytes sourcePort destPort length 0 ++ payload)

theorem wordSum_covered (sourcePort destPort : Port) (ourIp ip : Ip) (payload : List UInt8) :
    wordSum (coveredWords sourcePort destPort ourIp ip payload) =
      wordSum (pseudoHeader ourIp ip (UInt16.ofNat (8 + payload.length))) +
        (wordSum (udpHeaderBytes sourcePort destPort (UInt16.ofNat (8 + payload.length)) 0) + wordSum payload) := by
  unfold coveredWords
  dsimp only
  rw [wordSum_append (by simp [pseudoHeader, be32Bytes, be16Bytes]), wordSum_append (by rw [udpHeaderBytes_length])]

theorem datagramLength (hlength : 0 ≤ k.length) :
    UInt16.ofInt (k.length + udpHeaderSize) = UInt16.ofNat (8 + k.payload.length) := by
  rw [← UInt16.toNat_inj, ofInt_toNat, UInt16.toNat_ofNat', NetworkPacket.payload, readBytes_length, udpHeaderSize]
  omega

/-- The 32-bit sum that `compute_udp_checksum` starts from. -/
theorem pseudoSum_toNat (ourIp ip : Ip) (hlength : 0 ≤ k.length ∧ k.length + 8 < 65536) :
    ((ourIp >>> 16) + (ourIp &&& (0xFFFF : Ip)) + (ip >>> 16) + (ip &&& (0xFFFF : Ip)) + ipProtocolUdp.toUInt32 +
      UInt32.ofInt (k.length + udpHeaderSize)).toNat =
        wordSum (pseudoHeader ourIp ip (UInt16.ofNat (8 + k.payload.length))) ∧
      wordSum (pseudoHeader ourIp ip (UInt16.ofNat (8 + k.payload.length))) ≤ 393210 := by
  have hhalf : ∀ x : UInt32, (x >>> 16).toNat < 65536 ∧ (x &&& (0xFFFF : UInt32)).toNat < 65536 := by
    intro x
    have hlt := x.toNat_lt
    have hhigh : (x >>> 16).toNat = x.toNat / 65536 := by
      rw [UInt32.toNat_shiftRight]
      exact Nat.shiftRight_eq_div_pow x.toNat 16
    have hlow : (x &&& (0xFFFF : UInt32)).toNat = x.toNat % 65536 := by
      rw [UInt32.toNat_and]
      exact Nat.and_two_pow_sub_one_eq_mod x.toNat 16
    omega
  have hour := hhalf ourIp
  have htheir := hhalf ip
  have hlast : (UInt32.ofInt (k.length + udpHeaderSize)).toNat = (UInt16.ofNat (8 + k.payload.length)).toNat := by
    simp only [UInt32.ofInt, UInt32.toNat_ofNat', UInt16.toNat_ofNat', NetworkPacket.payload, readBytes_length,
      udpHeaderSize]
    omega
  have hshort := (UInt16.ofNat (8 + k.payload.length)).toNat_lt
  have hprotocol : ipProtocolUdp.toUInt32.toNat = 17 := rfl
  rw [wordSum_pseudoHeader]
  simp only [UInt32.toNat_add, hlast, hprotocol]
  omega

theorem computeUdpChecksum_toNat (hlength : 0 ≤ k.length ∧ k.length + 8 < 65536) :
    (computeUdpChecksum (udpPushed sourcePort destPort k) ourIp ip).toNat =
      65535 - folded (wordSum (coveredWords sourcePort destPort ourIp ip k.payload)) := by
  obtain ⟨hsum, hbound⟩ := pseudoSum_toNat ourIp ip hlength
  have hpushedLength : (udpPushed sourcePort destPort k).length = k.length + udpHeaderSize := rfl
  have hpushed := udpPushed_bytes sourcePort destPort hlength.1
  rw [datagramLength hlength.1] at hpushed
  rw [← hpushedLength] at hsum
  have hsize : (UInt16.ofInt (udpPushed sourcePort destPort k).length).toNat =
      (udpPushed sourcePort destPort k).length.toNat := by
    rw [ofInt_toNat]
    show ((k.length + 8) % 65536).toNat = (k.length + 8).toNat
    rw [Int.emod_eq_of_lt (by omega) hlength.2]
  have hwords : readBytes (udpPushed sourcePort destPort k).data (udpPushed sourcePort destPort k).index
      (UInt16.ofInt (udpPushed sourcePort destPort k).length).toNat =
        udpHeaderBytes sourcePort destPort (UInt16.ofNat (8 + k.payload.length)) 0 ++ k.payload := by
    rw [hsize]
    exact hpushed
  have hlt := (UInt16.ofInt (udpPushed sourcePort destPort k).length).toNat_lt
  have hfits : wordSum (pseudoHeader ourIp ip (UInt16.ofNat (8 + k.payload.length))) +
      65535 * (((UInt16.ofInt (udpPushed sourcePort destPort k).length).toNat + 1) / 2) < 4294967296 := by
    omega
  have hchecksum : (computeUdpChecksum (udpPushed sourcePort destPort k) ourIp ip).toNat = 65535 - folded (_ + _) :=
    computeChecksum_toNat (hsum.symm ▸ hfits)
  rw [hsum, hwords, wordSum_append (by rw [udpHeaderBytes_length])] at hchecksum
  rw [wordSum_covered]
  exact hchecksum

theorem udpFramed_datagram (hlength : 0 ≤ k.length) :
    (udpFramed sourcePort destPort ourIp ip k).payload =
      udpHeaderBytes sourcePort destPort (UInt16.ofNat (8 + k.payload.length))
        (computeUdpChecksum (udpPushed sourcePort destPort k) ourIp ip) ++ k.payload := by
  rw [udpFramed_bytes sourcePort destPort ourIp ip hlength, datagramLength hlength]

/-- With the complement in its place the sum is right, whatever the payload. -/
theorem onesSum_datagram (h : checksum.toNat = 65535 - folded (wordSum (coveredWords sourcePort destPort ourIp ip payload))) :
    onesSum (pseudoHeader ourIp ip (UInt16.ofNat (8 + payload.length)) ++
      (udpHeaderBytes sourcePort destPort (UInt16.ofNat (8 + payload.length)) checksum ++ payload)) = 0xFFFF := by
  have hcovered := wordSum_covered sourcePort destPort ourIp ip payload
  have hvalid := folded_complement (wordSum (coveredWords sourcePort destPort ourIp ip payload))
  have heven : (pseudoHeader ourIp ip (UInt16.ofNat (8 + payload.length))).length % 2 = 0 := by
    simp [pseudoHeader, be32Bytes, be16Bytes]
  have hwords : wordSum (pseudoHeader ourIp ip (UInt16.ofNat (8 + payload.length)) ++
      (udpHeaderBytes sourcePort destPort (UInt16.ofNat (8 + payload.length)) checksum ++ payload)) =
      wordSum (coveredWords sourcePort destPort ourIp ip payload) +
        (65535 - folded (wordSum (coveredWords sourcePort destPort ourIp ip payload))) := by
    rw [wordSum_append heven, wordSum_append (by rw [udpHeaderBytes_length]), wordSum_udpHeader, h]
    omega
  rw [onesSum_eq, hwords]
  exact hvalid

/-- The complement is zero where nothing is missing to `0xFFFF`. -/
theorem complement_zero_iff (h : checksum.toNat = 65535 - folded (wordSum (coveredWords sourcePort destPort ourIp ip payload))) :
    be16Bytes checksum = [0, 0] ↔ onesSum (coveredWords sourcePort destPort ourIp ip payload) = 0xFFFF := by
  have hle := folded_le (wordSum (coveredWords sourcePort destPort ourIp ip payload))
  rw [onesSum_eq]
  constructor
  · intro hzero
    have hwords := wordSum_be16 checksum
    have hnone : wordSum ([0, 0] : List UInt8) = 0 := rfl
    rw [hzero, hnone] at hwords
    omega
  · intro hfull
    have hzero : checksum = 0 := by
      rw [← UInt16.toNat_inj, h, hfull]
      rfl
    rw [hzero]
    rfl

/-- The datagram is valid exactly where its checksum is not zero. -/
theorem valid_iff (h : checksum.toNat = 65535 - folded (wordSum (coveredWords sourcePort destPort ourIp ip payload))) :
    ValidChecksum ourIp ip
        (udpHeaderBytes sourcePort destPort (UInt16.ofNat (8 + payload.length)) checksum ++ payload) ↔
      onesSum (coveredWords sourcePort destPort ourIp ip payload) ≠ 0xFFFF := by
  have hlength : (udpHeaderBytes sourcePort destPort (UInt16.ofNat (8 + payload.length)) checksum ++ payload).length =
      8 + payload.length := by
    rw [List.length_append, udpHeaderBytes_length]
  have hfield : ((udpHeaderBytes sourcePort destPort (UInt16.ofNat (8 + payload.length)) checksum ++
      payload).drop 6).take 2 = be16Bytes checksum := rfl
  rw [ne_eq, ← complement_zero_iff h]
  constructor
  · intro hvalid
    have hpresent := hvalid.present
    rw [hfield] at hpresent
    exact hpresent
  · intro hpresent
    constructor
    · rw [hfield]
      exact hpresent
    · rw [hlength]
      exact onesSum_datagram h

/-- `udp_send_zero_copy` passes a datagram with a valid checksum to `ip_send` exactly where the words it covers do not
sum to `0xFFFF` without it. -/
theorem udp_checksum_valid_iff (hlength : 0 ≤ (s.packets p).length ∧ (s.packets p).length + 8 < 65536) :
    ∃ t checksum, udpSendZeroCopy p sourcePort destPort ip s = ipSend p ip ipProtocolUdp t ∧
      (t.packets p).payload = udpHeaderBytes sourcePort destPort (UInt16.ofNat (8 + (s.packets p).payload.length))
        checksum ++ (s.packets p).payload ∧
      (ValidChecksum s.ourIp ip (t.packets p).payload ↔
        onesSum (coveredWords sourcePort destPort s.ourIp ip (s.packets p).payload) ≠ 0xFFFF) := by
  have hpacket : (handedToIp sourcePort destPort ip p s).packets p =
      udpFramed sourcePort destPort s.ourIp ip (s.packets p) := Function.update_self _ _ _
  have hdatagram : (udpFramed sourcePort destPort s.ourIp ip (s.packets p)).payload = _ :=
    udpFramed_datagram hlength.1
  refine ⟨handedToIp sourcePort destPort ip p s,
    computeUdpChecksum (udpPushed sourcePort destPort (s.packets p)) s.ourIp ip,
    udpSendZeroCopy_hands sourcePort destPort ip p s, ?_, ?_⟩
  · rw [hpacket, hdatagram]
  · rw [hpacket, hdatagram]
    exact valid_iff (computeUdpChecksum_toNat hlength)

/-- A host at 10.0.0.1 that has filled a packet with two bytes. -/
def filledWith (high low : UInt8) : Stack :=
  hostWith { zeroPacket with
    data := writeBytes [high, low] networkPacketHeaderSize (memoryOf []), index := networkPacketHeaderSize, length := 2 }

/-- The words of this datagram sum to `0xFFFF` without a checksum, and it is sent with none. -/
theorem zero_checksum_sent :
    ((filledWith 0xE0 0x1F).packets 60).payload = [0xE0, 0x1F] ∧
      ∃ t, udpSendZeroCopy 60 1000 2000 0x0A000002 (filledWith 0xE0 0x1F) = ipSend 60 0x0A000002 ipProtocolUdp t ∧
        (((t.packets 60).payload.drop 6).take 2 = [0, 0]) ∧
        ¬ ValidChecksum (filledWith 0xE0 0x1F).ourIp 0x0A000002 (t.packets 60).payload := by
  have hfield : ((((handedToIp 1000 2000 0x0A000002 60 (filledWith 0xE0 0x1F)).packets 60).payload.drop 6).take 2) =
      [0, 0] := by decide +kernel
  refine ⟨by decide +kernel, _, udpSendZeroCopy_hands 1000 2000 0x0A000002 60 _, hfield, fun h => ?_⟩
  exact h.present hfield

theorem udp_checksum_valid_zeros :
    ∃ t checksum, udpSendZeroCopy 60 1000 2000 0x0A000002 (filledWith 0 0) = ipSend 60 0x0A000002 ipProtocolUdp t ∧
      (t.packets 60).payload = udpHeaderBytes 1000 2000 10 checksum ++ [0, 0] ∧
      ValidChecksum (filledWith 0 0).ourIp 0x0A000002 (t.packets 60).payload := by
  have hpayload : ((filledWith 0 0).packets 60).payload = [0, 0] := by decide +kernel
  have hlength : 0 ≤ ((filledWith 0 0).packets 60).length ∧ ((filledWith 0 0).packets 60).length + 8 < 65536 := by
    decide +kernel
  have hcovered : onesSum (coveredWords 1000 2000 (filledWith 0 0).ourIp 0x0A000002 [0, 0]) ≠ 0xFFFF := by
    decide +kernel
  have hpassed : ∃ t checksum,
      udpSendZeroCopy 60 1000 2000 0x0A000002 (filledWith 0 0) = ipSend 60 0x0A000002 ipProtocolUdp t ∧
        (t.packets 60).payload = udpHeaderBytes 1000 2000 (UInt16.ofNat (8 + ((filledWith 0 0).packets 60).payload.length))
          checksum ++ ((filledWith 0 0).packets 60).payload ∧ _ := udp_checksum_valid_iff hlength
  obtain ⟨t, checksum, hsend, hbytes, hvalid⟩ := hpassed
  rw [hpayload] at hbytes hvalid
  exact ⟨t, checksum, hsend, hbytes, hvalid.mpr hcovered⟩

end MiniIp.Guarantees.UdpChecksum
