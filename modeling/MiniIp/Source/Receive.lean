import MiniIp.Source.Udp

/-!
# Receiving: ICMP, IP and MAC

Source: icmp.c:8-67, ip.c:145-215 (`verify_ip_header`, `should_filter_away`,
`handle_ip`), mac.c:96-118 (`handle_mac`).
-/

set_option autoImplicit false

namespace MiniIp.Source

def icmpTypePingReply : UInt8 := 0
def icmpTypePingRequest : UInt8 := 8

/-- `sizeof(IcmpHeader)`: type 0, code 1, checksum 2, id 4, sequence number 6. -/
def icmpHeaderSize : Int := 8

def computeIcmpChecksum (memory : Memory) (pointer size : Int) : UInt16 :=
  computeChecksum memory pointer size.toNat 0

/-- The in-place answer to a ping. -/
def writePingReply (length header : Int) (memory : Memory) : Memory :=
  let memory := writeByte icmpTypePingReply header memory
  let memory := writeByte 0 (header + 1) memory
  let memory := writeBe16 0 (header + 2) memory
  writeBe16 (computeIcmpChecksum memory header length) (header + 2) memory

def handleIcmp (packet : PacketId) : Net Unit := do
  let p ← getPacket packet
  if sizeT p.length < icmpHeaderSize then
    freeNetworkPacket packet
  else
    recordWindow .handleIcmp packet icmpHeaderSize
    if p.data p.index = icmpTypePingRequest then
      modifyPacket packet fun p => { p with data := writePingReply p.length p.index p.data }
      ipSend packet p.sendersIp ipProtocolIcmp
    else
      freeNetworkPacket packet

/-- The `header_length` nibble times `sizeof(u32)`. -/
def ipHeaderLength (memory : Memory) (header : Int) : Int :=
  4 * (memory header &&& (0x0F : UInt8)).toNat

def verifyIpHeader (memory : Memory) (header packetSize : Int) : Bool :=
  if memory header >>> 4 ≠ 4 then false
  else if readBe16 memory (header + 6) &&& ipFlagMoreFragments ≠ 0 then false
  else if ipHeaderLength memory header ≥ sizeT packetSize then false
  else true

def shouldFilterAway (ourIp targetIp : Ip) : Bool :=
  if ourIp = 0 ∨ ourIp = targetIp ∨ targetIp = 0xFFFFFFFF then false else true

/-- The length after the padding of short frames has been cut off. -/
def trimmedLength (p : NetworkPacket) : Int :=
  let total : Int := (readBe16 p.data (p.index + 2)).toNat
  if p.length < total then p.length else total

def handleIp (packet : PacketId) : Net Unit := do
  let p ← getPacket packet
  if sizeT p.length ≤ ipHeaderSize then
    freeNetworkPacket packet
  else
    recordWindow .handleIp packet ipHeaderSize
    let header := p.index
    modifyPacket packet fun p => { p with
      sendersIp := readBe32 p.data (header + 12)
      targetIp := readBe32 p.data (header + 16)
      length := trimmedLength p }
    if verifyIpHeader p.data header (trimmedLength p) = false then
      freeNetworkPacket packet
    else
      let headerLength := ipHeaderLength p.data header
      modifyPacket packet fun p => { p with
        index := p.index + headerLength, length := p.length - headerLength }
      if shouldFilterAway (← get).ourIp (readBe32 p.data (header + 16)) then
        freeNetworkPacket packet
      else if p.data (header + 9) = ipProtocolUdp then
        handleUdp packet
      else if p.data (header + 9) = ipProtocolIcmp then
        handleIcmp packet
      else
        freeNetworkPacket packet

def handleMac (packet : PacketId) : Net Unit := do
  let p ← getPacket packet
  if sizeT p.length ≤ macHeaderSize then
    freeNetworkPacket packet
  else
    recordWindow .handleMac packet macHeaderSize
    modifyPacket packet fun p => { p with
      length := p.length - macHeaderSize, index := p.index + macHeaderSize }
    let etherType := readBe16 p.data (p.index + 12)
    if etherType = etherTypeArp then
      handleArp packet
    else if etherType = etherTypeIpv4 then
      handleIp packet
    else
      freeNetworkPacket packet

end MiniIp.Source
