import MiniIp.Invariant.Building
import MiniIp.Invariant.FrameBytes
import MiniIp.Invariant.SentFrames

/-!
# The bytes of an ARP frame

`send_arp_packet` writes all 28 bytes of its packet, field by field and out of order, and
`mac_send` the 14 in front of it.
-/

set_option autoImplicit false

namespace MiniIp.Invariant

open MiniIp.Source MiniIp.Library.Wp

def macBytes (mac : Mac) : List UInt8 := mac.address.toList

/-- The packet of ARP over Ethernet and IPv4. -/
def arpBytes (operation : UInt16) (sendersMac : Mac) (sendersIp : Ip) (targetMac : Mac) (targetIp : Ip) : List UInt8 :=
  [0, 1, 0x08, 0x00, 6, 4] ++ be16Bytes operation ++ macBytes sendersMac ++ be32Bytes sendersIp ++
    macBytes targetMac ++ be32Bytes targetIp

variable {memory : Memory} {place pointer : Int} {size : ℕ} {s : Stack} {p : PacketId} {rest : List PacketId}

theorem macBytes_length (mac : Mac) : (macBytes mac).length = 6 := mac.address.length_toList

theorem macBytes_injective {mac mac' : Mac} (h : macBytes mac = macBytes mac') : mac = mac' := by
  cases mac
  cases mac'
  exact congrArg Mac.mk (Vector.toList_inj.mp h)

theorem be32Bytes_length (value : UInt32) : (be32Bytes value).length = 4 := rfl

theorem readBytes_writeBe16 (value : UInt16) : readBytes (writeBe16 value pointer memory) pointer 2 = be16Bytes value := by
  have hbytes : writeBe16 value pointer memory pointer = _ ∧ writeBe16 value pointer memory (pointer + 1) = _ :=
    writeBe16_same value
  rw [readBytes, readBytes, readBytes, hbytes.1, hbytes.2, be16Bytes]

theorem readBytes_writeBe32 (value : UInt32) : readBytes (writeBe32 value pointer memory) pointer 4 = be32Bytes value := by
  have hbytes : writeBe32 value pointer memory pointer = _ ∧ writeBe32 value pointer memory (pointer + 1) = _ ∧ _ :=
    writeBe32_same value
  have hthird : pointer + 1 + 1 = pointer + 2 := by omega
  have hfourth : pointer + 2 + 1 = pointer + 3 := by omega
  rw [readBytes, readBytes, readBytes, readBytes, readBytes, hthird, hfourth, hbytes.1, hbytes.2.1, hbytes.2.2.1,
    hbytes.2.2.2, be32Bytes]

theorem readBytes_writeByte (value : UInt8) : readBytes (writeByte value pointer memory) pointer 1 = [value] := by
  rw [readBytes, readBytes, writeByte_same]

theorem readBytes_writeMac (mac : Mac) : readBytes (writeMac mac pointer memory) pointer 6 = macBytes mac := by
  have hbytes : readBytes (writeBytes mac.address.toList pointer memory) pointer mac.address.toList.length = _ :=
    readBytes_writeBytes mac.address.toList pointer memory
  rw [mac.address.length_toList] at hbytes
  exact hbytes

theorem readBytes_beside_byte (value : UInt8) (h : place + size ≤ pointer ∨ pointer + 1 ≤ place) :
    readBytes (writeByte value pointer memory) place size = readBytes memory place size :=
  readBytes_congr fun x hle hlt => writeByte_other value (by omega)

theorem readBytes_beside_be16 (value : UInt16) (h : place + size ≤ pointer ∨ pointer + 2 ≤ place) :
    readBytes (writeBe16 value pointer memory) place size = readBytes memory place size :=
  readBytes_congr fun x hle hlt => writeBe16_other value (by omega)

theorem readBytes_beside_be32 (value : UInt32) (h : place + size ≤ pointer ∨ pointer + 4 ≤ place) :
    readBytes (writeBe32 value pointer memory) place size = readBytes memory place size :=
  readBytes_congr fun x hle hlt => writeBe32_other value (by omega)

theorem readBytes_beside_mac (mac : Mac) (h : place + size ≤ pointer ∨ pointer + 6 ≤ place) :
    readBytes (writeMac mac pointer memory) place size = readBytes memory place size :=
  readBytes_congr fun x hle hlt => writeMac_other mac (by omega)

/-- The fields of the header do not overlap, so that the order of the writes does not matter. -/
theorem readBytes_arpHeader (sendersMac targetMac : Mac) (sendersIp targetIp : Ip) (operation : UInt16) (header : Int)
    (memory : Memory) :
    readBytes (writeArpHeader sendersMac targetMac sendersIp targetIp operation header memory) header 28 =
      arpBytes operation sendersMac sendersIp targetMac targetIp := by
  have hsplit : ∀ m : Memory, readBytes m header 28 = readBytes m header 2 ++ readBytes m (header + 2) 2 ++
      readBytes m (header + 4) 1 ++ readBytes m (header + 5) 1 ++ readBytes m (header + 6) 2 ++
      readBytes m (header + 8) 6 ++ readBytes m (header + 14) 4 ++ readBytes m (header + 18) 6 ++
      readBytes m (header + 24) 4 := by
    intro m
    simp [readBytes, Int.add_assoc]
  rw [hsplit]
  unfold writeArpHeader
  simp (disch := omega) only [readBytes_beside_byte, readBytes_beside_be16, readBytes_beside_be32, readBytes_beside_mac,
    readBytes_writeByte, readBytes_writeBe16, readBytes_writeBe32, readBytes_writeMac]
  rfl

/-- The frame behind its MAC header. What the packet held before is overwritten. -/
theorem arpFilled_bytes (s : Stack) (targetMac : Mac) (targetIp : Ip) (old : NetworkPacket) :
    (arpFilled s targetMac targetIp .reply old).payload =
        arpBytes arpOperationReply s.ourMac s.ourIp targetMac targetIp ∧
      (arpFilled s targetMac targetIp .request old).payload =
        arpBytes arpOperationRequest s.ourMac s.ourIp (residueOf s) targetIp :=
  ⟨readBytes_arpHeader _ _ _ _ _ _ _, readBytes_arpHeader _ _ _ _ _ _ _⟩

/-- The header of MAC, byte for byte. -/
theorem macFramed_frame (mac ourMac : Mac) (etherType : UInt16) {k : NetworkPacket} (h : 0 ≤ k.length) :
    (macFramed mac ourMac etherType k).payload = macBytes mac ++ macBytes ourMac ++ be16Bytes etherType ++ k.payload := by
  let framed := macFramed mac ourMac etherType k
  have hlong : 6 + 6 + 2 ≤ framed.length.toNat := by
    show 6 + 6 + 2 ≤ (k.length + 14).toNat
    omega
  have hmacs : readBytes framed.data framed.index (6 + 6 + 2) =
      macBytes mac ++ macBytes ourMac ++ be16Bytes etherType := by
    rw [readBytes_add, readBytes_add]
    show readBytes (writeBe16 etherType (k.index - macHeaderSize + 12) (writeMac ourMac (k.index - macHeaderSize + 6)
      (writeMac mac (k.index - macHeaderSize) k.data))) (k.index - macHeaderSize) 6 ++
      readBytes (writeBe16 etherType (k.index - macHeaderSize + 12) (writeMac ourMac (k.index - macHeaderSize + 6)
        (writeMac mac (k.index - macHeaderSize) k.data))) (k.index - macHeaderSize + 6) 6 ++
      readBytes (writeBe16 etherType (k.index - macHeaderSize + 12) (writeMac ourMac (k.index - macHeaderSize + 6)
        (writeMac mac (k.index - macHeaderSize) k.data))) (k.index - macHeaderSize + 12) 2 = _
    simp (disch := omega) only [readBytes_beside_be16, readBytes_beside_mac, readBytes_writeBe16, readBytes_writeMac]
  have hfront : framed.payload.take 14 = macBytes mac ++ macBytes ourMac ++ be16Bytes etherType := by
    rw [← hmacs]
    exact take_readBytes framed.data framed.index hlong
  rw [← hfront, ← macFramed_payload mac ourMac etherType h, List.take_append_drop]

theorem arpFilled_length (s : Stack) (targetMac : Mac) (targetIp : Ip) (arpType : ArpType) (old : NetworkPacket) :
    0 ≤ (arpFilled s targetMac targetIp arpType old).length := by
  show (0 : Int) ≤ 28
  decide

/-- The frames of `send_arp_packet`. -/
theorem arpFrame_reply (s : Stack) (targetMac : Mac) (targetIp : Ip) (old : NetworkPacket) :
    arpFrame s targetMac targetIp .reply old = macBytes targetMac ++ macBytes s.ourMac ++ be16Bytes etherTypeArp ++
      arpBytes arpOperationReply s.ourMac s.ourIp targetMac targetIp := by
  unfold arpFrame
  rw [macFramed_frame _ _ _ (arpFilled_length _ _ _ _ _), (arpFilled_bytes s targetMac targetIp _).1]
  rfl

theorem arpFrame_request (s : Stack) (targetMac : Mac) (targetIp : Ip) (old : NetworkPacket) :
    arpFrame s targetMac targetIp .request old = macBytes broadcastMac ++ macBytes s.ourMac ++ be16Bytes etherTypeArp ++
      arpBytes arpOperationRequest s.ourMac s.ourIp (residueOf s) targetIp := by
  unfold arpFrame
  rw [macFramed_frame _ _ _ (arpFilled_length _ _ _ _ _), (arpFilled_bytes s targetMac targetIp _).2]
  rfl

/-- One frame is sent, and the table is not touched. -/
structure ArpSent (frame : List UInt8) (s t : Stack) : Prop where
  frames : sentFrames t.trace = frame :: sentFrames s.trace
  arp : t.arp = s.arp
  unsent : unsent t = unsent s

/-- A packet is in the pool: one frame is given to the driver, also where the call then stops. -/
theorem sendArpPacket_sent (hpool : s.freeNetworkPackets = p :: rest) (targetMac : Mac) (targetIp : Ip)
    (arpType : ArpType) :
    wp (sendArpPacket targetMac targetIp arpType)
      (fun _ t => ArpSent (arpFrame s targetMac targetIp arpType (s.packets p)) s t)
      (fun _ t => ArpSent (arpFrame s targetMac targetIp arpType (s.packets p)) s t) s := by
  have hdone : ∀ t, MacSent p (if arpType = .reply then targetMac else broadcastMac) etherTypeArp
      ((Stack.advanced s rest [.window .sendArpPacket networkPacketHeaderSize 0 arpHeaderSize]).write p
        (arpFilled s targetMac targetIp arpType (emptied (s.packets p)))) t →
      ArpSent (arpFrame s targetMac targetIp arpType (s.packets p)) s t := by
    intro t ht
    constructor
    · rw [ht.frames, Stack.write_packets, Function.update_self]
      rfl
    · exact ht.arp
    · exact ht.unsent
  unfold wp
  rw [sendArpPacket_eq hpool]
  apply wp_mono (macSend_sent _ _ _ _)
  · intro _ t ht
    exact hdone t ht
  · intro _ t ht
    exact hdone t ht

end MiniIp.Invariant
