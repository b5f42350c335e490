import MiniIp.Invariant.Building
import MiniIp.Invariant.Checksum
import MiniIp.Invariant.Reception

/-!
# The bytes of a datagram's frame

Which bytes the three layers put in front of a datagram, and what the three handlers read from them, whatever padding
follows.
-/

set_option autoImplicit false

namespace MiniIp.Invariant

open MiniIp.Source

variable {k f : NetworkPacket} {memory : Memory} {pointer : Int} {size : ℕ} {front back : List UInt8}
  {sourcePort destPort : Port} {ourIp ip : Ip}

theorem readBytes_behind {n : ℕ} (place : Int) (h : readBytes memory pointer size = front ++ back)
    (hfront : front.length = n) (hplace : place = pointer + n) : ∃ rest, readBytes memory place rest = back := by
  refine ⟨size - n, ?_⟩
  rw [hplace, ← drop_readBytes, h, ← hfront, List.drop_left]

theorem readBytes_front (h : readBytes memory pointer size = front ++ back) :
    readBytes memory pointer front.length = front := by
  have hlength := congrArg List.length h
  rw [readBytes_length, List.length_append] at hlength
  have hle : front.length ≤ size := by omega
  rw [← take_readBytes memory pointer hle, h, List.take_left]

def udpHeaderBytes (sourcePort destPort : Port) (length checksum : UInt16) : List UInt8 :=
  be16Bytes sourcePort ++ be16Bytes destPort ++ be16Bytes length ++ be16Bytes checksum

theorem be16Bytes_length (value : UInt16) : (be16Bytes value).length = 2 := rfl

theorem ipHeaderBytes_length (length checksum : UInt16) (protocol : UInt8) (ourIp ip : Ip) :
    (ipHeaderBytes length checksum protocol ourIp ip).length = 20 := rfl

theorem udpHeaderBytes_length (sourcePort destPort : Port) (length checksum : UInt16) :
    (udpHeaderBytes sourcePort destPort length checksum).length = 8 := rfl

/-- The packet with its UDP header, the checksum still zero. -/
def udpPushed (sourcePort destPort : Port) (k : NetworkPacket) : NetworkPacket := { k with
  index := k.index - udpHeaderSize
  length := k.length + udpHeaderSize
  data := writeUdpFields sourcePort destPort (UInt16.ofInt (k.length + udpHeaderSize)) (k.index - udpHeaderSize) k.data }

/-- A header in front of the window, by what is read at its place. -/
theorem headed_bytes {pushed : NetworkPacket} {header : List UInt8} (hindex : pushed.index = k.index - udpHeaderSize)
    (hlength : pushed.length = k.length + udpHeaderSize) (hdata : ∀ x, k.index ≤ x → pushed.data x = k.data x)
    (hheader : readBytes pushed.data pushed.index 8 = header) (h : 0 ≤ k.length) :
    pushed.payload = header ++ k.payload := by
  have hsize : pushed.length.toNat = 8 + k.length.toNat := by
    rw [hlength, udpHeaderSize]
    omega
  have hplace : pushed.index + (8 : ℕ) = k.index := by
    rw [hindex, udpHeaderSize]
    omega
  have hbody : readBytes pushed.data (pushed.index + (8 : ℕ)) k.length.toNat = k.payload := by
    rw [hplace]
    apply readBytes_congr
    intro x hle _
    exact hdata x hle
  rw [NetworkPacket.payload, hsize, readBytes_add, hheader, hbody]

theorem udpPushed_bytes (sourcePort destPort : Port) (h : 0 ≤ k.length) :
    (udpPushed sourcePort destPort k).payload =
      udpHeaderBytes sourcePort destPort (UInt16.ofInt (k.length + udpHeaderSize)) 0 ++ k.payload := by
  refine headed_bytes rfl rfl (fun x hx => ?_) ?_ h
  · simp (disch := omega) only [udpPushed, writeUdpFields, udpHeaderSize, writeBe16_other]
  · unfold udpPushed
    dsimp only
    generalize UInt16.ofInt (k.length + udpHeaderSize) = length
    simp [readBytes, udpHeaderBytes, be16Bytes, writeUdpFields, writeBe16, writeByte, Function.update_apply,
      Int.add_assoc]

theorem udpFramed_bytes (sourcePort destPort : Port) (ourIp ip : Ip) (h : 0 ≤ k.length) :
    (udpFramed sourcePort destPort ourIp ip k).payload =
      udpHeaderBytes sourcePort destPort (UInt16.ofInt (k.length + udpHeaderSize))
        (computeUdpChecksum (udpPushed sourcePort destPort k) ourIp ip) ++ k.payload := by
  refine headed_bytes rfl rfl (fun x hx => udpFramed_data sourcePort destPort ourIp ip hx) ?_ h
  have hframed : udpFramed sourcePort destPort ourIp ip k = { udpPushed sourcePort destPort k with
      data := writeBe16 (computeUdpChecksum (udpPushed sourcePort destPort k) ourIp ip)
        ((udpPushed sourcePort destPort k).index + 6) (udpPushed sourcePort destPort k).data } := rfl
  rw [hframed]
  generalize computeUdpChecksum _ _ _ = checksum
  unfold udpPushed
  dsimp only
  generalize UInt16.ofInt (k.length + udpHeaderSize) = length
  simp [readBytes, udpHeaderBytes, be16Bytes, writeUdpFields, writeBe16, writeByte, Function.update_apply,
    Int.add_assoc]

theorem ipFramed_bytes (protocol : UInt8) (ourIp ip : Ip) (h : 0 ≤ k.length) :
    ∃ checksum, (ipFramed protocol ourIp ip k).payload =
      ipHeaderBytes (UInt16.ofInt (k.length + ipHeaderSize)) checksum protocol ourIp ip ++ k.payload := by
  have hlong : 20 ≤ (k.length + ipHeaderSize).toNat := by
    rw [ipHeaderSize]
    omega
  obtain ⟨checksum, hbytes⟩ := readBytes_ipHeader k.data (k.index - ipHeaderSize)
    (UInt16.ofInt (k.length + ipHeaderSize)) protocol ourIp ip
  have hheader : (ipFramed protocol ourIp ip k).payload.take 20 =
      ipHeaderBytes (UInt16.ofInt (k.length + ipHeaderSize)) checksum protocol ourIp ip := by
    rw [← hbytes]
    exact take_readBytes _ _ hlong
  refine ⟨checksum, ?_⟩
  rw [← hheader, ← ipFramed_payload protocol ourIp ip h, List.take_append_drop]

theorem macFramed_bytes (mac ourMac : Mac) (etherType : UInt16) (h : 0 ≤ k.length) :
    ∃ macs : List UInt8, macs.length = 12 ∧
      (macFramed mac ourMac etherType k).payload = macs ++ (be16Bytes etherType ++ k.payload) := by
  let framed := macFramed mac ourMac etherType k
  have hlong : 12 + 2 ≤ framed.length.toNat := by
    show 12 + 2 ≤ (k.length + 14).toNat
    omega
  have htype : readBytes framed.data (framed.index + (12 : ℕ)) 2 = be16Bytes etherType := by
    have hbytes : framed.data (framed.index + (12 : ℕ)) = _ ∧ framed.data (framed.index + (12 : ℕ) + 1) = _ :=
      writeBe16_same etherType
    rw [readBytes, readBytes, readBytes, hbytes.1, hbytes.2, be16Bytes]
  refine ⟨readBytes framed.data framed.index 12, readBytes_length _ _ _, ?_⟩
  rw [← macFramed_payload mac ourMac etherType h, ← htype, ← List.append_assoc, ← readBytes_add,
    ← take_readBytes framed.data framed.index hlong]
  exact (List.take_append_drop 14 framed.payload).symm

/-- The frame of a datagram: the headers of MAC, IP and UDP, and the payload. -/
def DatagramFrame (sourcePort destPort : Port) (ourIp ip : Ip) (payload frame : List UInt8) : Prop :=
  ∃ (macs : List UInt8) (total ipChecksum length udpChecksum : UInt16), macs.length = 12 ∧
    total.toNat = 28 + payload.length ∧
    frame = macs ++ (be16Bytes etherTypeIpv4 ++ (ipHeaderBytes total ipChecksum ipProtocolUdp ourIp ip ++
      (udpHeaderBytes sourcePort destPort length udpChecksum ++ payload)))

theorem datagramFrame (mac ourMac : Mac) (sourcePort destPort : Port) (ourIp ip : Ip) (h : 0 ≤ k.length)
    (hfits : k.length ≤ 880) :
    DatagramFrame sourcePort destPort ourIp ip k.payload
      (macFramed mac ourMac etherTypeIpv4 (udpIpFramed sourcePort destPort ourIp ip k)).payload := by
  have hudp : 0 ≤ (udpFramed sourcePort destPort ourIp ip k).length := by
    show 0 ≤ k.length + 8
    omega
  have hip : 0 ≤ (udpIpFramed sourcePort destPort ourIp ip k).length := by
    show 0 ≤ k.length + 8 + 20
    omega
  obtain ⟨macs, hmacs, hframe⟩ := macFramed_bytes mac ourMac etherTypeIpv4 hip
  obtain ⟨ipChecksum, hpacket⟩ := ipFramed_bytes ipProtocolUdp ourIp ip hudp
  have hdatagram := udpFramed_bytes sourcePort destPort ourIp ip h
  refine ⟨macs, UInt16.ofInt (k.length + 8 + 20), ipChecksum, UInt16.ofInt (k.length + 8),
    computeUdpChecksum (udpPushed sourcePort destPort k) ourIp ip, hmacs, ?_, ?_⟩
  · rw [ofInt_toNat, payload_length]
    omega
  · rw [hframe, udpIpFramed, hpacket, hdatagram]
    rfl

/-- The header of IP, field by field. -/
structure IpFields (memory : Memory) (pointer : Int) (length : UInt16) (protocol : UInt8) (ourIp ip : Ip) : Prop where
  version : memory pointer = 0x45
  length : readBe16 memory (pointer + 2) = length
  flags : readBe16 memory (pointer + 6) = ipFlagDontFragment
  protocol : memory (pointer + 9) = protocol
  sender : readBe32 memory (pointer + 12) = ourIp
  target : readBe32 memory (pointer + 16) = ip

theorem ipFields_of_bytes {length checksum : UInt16} {protocol : UInt8}
    (h : readBytes memory pointer size = ipHeaderBytes length checksum protocol ourIp ip ++ back) :
    IpFields memory pointer length protocol ourIp ip := by
  have hheader := readBytes_front h
  simp only [ipHeaderBytes, be16Bytes, be32Bytes, List.cons_append, List.nil_append, List.length_cons, List.length_nil,
    readBytes, List.cons.injEq, Int.add_assoc, Int.reduceAdd, and_true] at hheader
  obtain ⟨hversion, _, hlength, hlength', _, _, hflags, hflags', _, hprotocol, _, _, ha, hb, hc, hd, ha', hb', hc',
    hd'⟩ := hheader
  constructor
  · exact hversion
  · simp only [readBe16, Int.add_assoc, Int.reduceAdd, hlength, hlength']
    exact be16_parts length
  · simp only [readBe16, Int.add_assoc, Int.reduceAdd, hflags, hflags']
    decide
  · exact hprotocol
  · simp only [readBe32, Int.add_assoc, Int.reduceAdd, ha, hb, hc, hd]
    exact be32_parts ourIp
  · simp only [readBe32, Int.add_assoc, Int.reduceAdd, ha', hb', hc', hd']
    exact be32_parts ip

/-- A received frame that holds a datagram, with or without padding. -/
structure HoldsDatagram (sourcePort destPort : Port) (ourIp ip : Ip) (payload : List UInt8) (f : NetworkPacket) :
    Prop where
  etherType : CarriesIp f
  header : ∃ total : UInt16, total.toNat = 28 + payload.length ∧
    IpFields f.data (f.index + 14) total ipProtocolUdp ourIp ip
  sourcePort : readBe16 f.data (f.index + 34) = sourcePort
  destPort : readBe16 f.data (f.index + 36) = destPort
  length : 42 + payload.length ≤ f.length
  payload : readBytes f.data (f.index + 42) payload.length = payload

theorem holdsDatagram {payload frame padding : List UInt8}
    (h : DatagramFrame sourcePort destPort ourIp ip payload frame) (hbytes : f.payload = frame ++ padding) :
    HoldsDatagram sourcePort destPort ourIp ip payload f := by
  obtain ⟨macs, total, ipChecksum, length, udpChecksum, hmacs, htotal, rfl⟩ := h
  simp only [List.append_assoc] at hbytes
  have hlong := congrArg List.length hbytes
  obtain ⟨_, hbehind⟩ := readBytes_behind (f.index + 12) hbytes hmacs rfl
  obtain ⟨_, hpacket⟩ := readBytes_behind (f.index + 14) hbehind (be16Bytes_length _) (by omega)
  obtain ⟨_, hdatagram⟩ := readBytes_behind (f.index + 34) hpacket (ipHeaderBytes_length _ _ _ _ _) (by omega)
  obtain ⟨_, hrest⟩ := readBytes_behind (f.index + 42) hdatagram (udpHeaderBytes_length _ _ _ _) (by omega)
  simp only [udpHeaderBytes, List.append_assoc] at hdatagram
  obtain ⟨_, hports⟩ := readBytes_behind (f.index + 36) hdatagram (be16Bytes_length _) (by omega)
  constructor
  · exact readBe16_eq hbehind
  · exact ⟨total, htotal, ipFields_of_bytes hpacket⟩
  · exact readBe16_eq hdatagram
  · exact readBe16_eq hports
  · simp only [payload_length, List.length_append, hmacs, be16Bytes_length, ipHeaderBytes_length,
      udpHeaderBytes_length] at hlong
    omega
  · exact readBytes_front hrest

section Taken

variable {payload : List UInt8} (h : HoldsDatagram sourcePort destPort ourIp ip payload f)

include h

theorem HoldsDatagram.headerLength : ipHeaderLength f.data (f.index + 14) = 20 := by
  obtain ⟨_, _, hheader⟩ := h.header
  rw [ipHeaderLength, hheader.version]
  rfl

/-- The padding is cut off. -/
theorem HoldsDatagram.trimmed : trimmedLength (macStripped f) = 28 + payload.length := by
  obtain ⟨total, htotal, hheader⟩ := h.header
  have hlong := h.length
  have hread : (readBe16 (macStripped f).data ((macStripped f).index + 2)).toNat = 28 + payload.length := by
    rw [← htotal, ← hheader.length]
    rfl
  have hlength : (macStripped f).length = f.length - 14 := rfl
  unfold trimmedLength
  dsimp only
  rw [hread, if_neg (by omega)]
  omega

theorem HoldsDatagram.stripped : (ipStripped (macStripped f)).index = f.index + 34 ∧
    (ipStripped (macStripped f)).length = 8 + payload.length := by
  have hindex : (ipStripped (macStripped f)).index = f.index + 14 + ipHeaderLength f.data (f.index + 14) := rfl
  have hlength : (ipStripped (macStripped f)).length =
      trimmedLength (macStripped f) - ipHeaderLength f.data (f.index + 14) := rfl
  rw [hindex, hlength, h.headerLength, h.trimmed]
  omega

/-- Every handler accepts the frame. -/
theorem HoldsDatagram.accepted (hfits : Fits 0 f) (hpayload : 0 < payload.length) {receiver : Ip}
    (htarget : receiver = 0 ∨ receiver = ip ∨ ip = 0xFFFFFFFF) : CarriesUdp receiver f ∧ LongEnough f := by
  obtain ⟨total, htotal, hheader⟩ := h.header
  obtain ⟨hindex, hpositive, hend⟩ := hfits
  have hlong := h.length
  have hsize : ∀ n : Int, 0 ≤ n → n ≤ 1024 → sizeT n = n := fun n hn hle => Int.emod_eq_of_lt hn (by omega)
  have hstripped : (macStripped f).length = f.length - 14 := rfl
  have hverify : verifyIpHeader f.data (f.index + 14) (trimmedLength (macStripped f)) = true := by
    apply verifyIpHeader_iff.mpr
    rw [hheader.version, hheader.flags, h.headerLength, h.trimmed, hsize _ (by omega) (by omega)]
    exact ⟨by decide, by decide, by omega⟩
  have hfilter : shouldFilterAway receiver (readBe32 f.data (f.index + 14 + 16)) = false := by
    rw [hheader.target, shouldFilterAway, if_pos htarget]
  constructor
  · exact ⟨h.etherType, hverify, hfilter, hheader.protocol⟩
  · constructor
    · rw [hsize f.length hpositive (by omega), macHeaderSize]
      omega
    · rw [hstripped, hsize (f.length - 14) (by omega) (by omega), ipHeaderSize]
      omega
    · rw [h.stripped.2, hsize _ (by omega) (by omega), udpHeaderSize]
      omega

theorem HoldsDatagram.datagramPort : datagramPort f = destPort := by
  unfold Invariant.datagramPort
  dsimp only
  rw [h.stripped.1, Int.add_assoc]
  exact h.destPort

/-- What is queued is the datagram that has been sent. -/
theorem HoldsDatagram.datagram : (datagram f).payload = payload ∧ (datagram f).sourcePort = sourcePort ∧
    (datagram f).sendersIp = ourIp := by
  obtain ⟨total, _, hheader⟩ := h.header
  obtain ⟨hindex, hlength⟩ := h.stripped
  have hplace : (Invariant.datagram f).index = f.index + 42 := by
    show (ipStripped (macStripped f)).index + 8 = f.index + 42
    omega
  have hsize : (Invariant.datagram f).length.toNat = payload.length := by
    show ((ipStripped (macStripped f)).length - 8).toNat = payload.length
    omega
  refine ⟨?_, ?_, hheader.sender⟩
  · rw [NetworkPacket.payload, hplace, hsize]
    exact h.payload
  · show readBe16 f.data (ipStripped (macStripped f)).index = sourcePort
    rw [hindex]
    exact h.sourcePort

end Taken

/-- A host at 10.0.0.1 that has this in packet 60. -/
def hostWith (content : NetworkPacket) : Stack :=
  { (booted zeroApplication 0 fun _ => 0).write 60 content with ourIp := 0x0A000001 }

end MiniIp.Invariant
