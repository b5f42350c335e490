import MiniIp.Source.Ip

/-!
# UDP

Source: udp.c:9-197.
-/

set_option autoImplicit false

namespace MiniIp.Source

/-- `sizeof(UdpHeader)`: source port 0, destination port 2, length 4, checksum 6. -/
def udpHeaderSize : Int := 8

def udpInit : Net Unit :=
  modify fun s => { s with
    udp.freeConnections := (List.finRange 16).reverse
    udp.usedConnections := []
    udp.connections := fun c => { s.udp.connections c with packetQueue := [] } }

def computeUdpChecksum (p : NetworkPacket) (sendersIp targetIp : Ip) : UInt16 :=
  computeChecksum p.data p.index (UInt16.ofInt p.length).toNat
    ((sendersIp >>> 16) + (sendersIp &&& (0xFFFF : Ip)) + (targetIp >>> 16) + (targetIp &&& (0xFFFF : Ip)) +
      ipProtocolUdp.toUInt32 + UInt32.ofInt p.length)

/-- The header fields of `udp_send_zero_copy`, the checksum still zero. -/
def writeUdpFields (sourcePort destPort : Port) (length : UInt16) (header : Int)
    (memory : Memory) : Memory :=
  writeBe16 0 (header + 6) (writeBe16 length (header + 4)
    (writeBe16 destPort (header + 2) (writeBe16 sourcePort header memory)))

def udpSendZeroCopy (packet : PacketId) (sourcePort destPort : Port) (ip : Ip) : Net Unit := do
  emit (.udpSend sourcePort destPort ip (← getPacket packet).payload)
  modifyPacket packet fun p => { p with
    index := p.index - udpHeaderSize, length := p.length + udpHeaderSize }
  recordWindow .udpSendZeroCopy packet udpHeaderSize
  let ourIp := (← get).ourIp
  modifyPacket packet fun p => { p with
    data := writeUdpFields sourcePort destPort (UInt16.ofInt p.length) p.index p.data }
  modifyPacket packet fun p => { p with
    data := writeBe16 (computeUdpChecksum p ourIp ip) (p.index + 6) p.data }
  ipSend packet ip ipProtocolUdp

/-- `data` is the caller's memory. -/
def udpSend (data : Nat → UInt8) (size : Int) (sourcePort destPort : Port) (ip : Ip) :
    Net Unit := do
  let packet ← allocateNetworkPacket
  let size := if size < networkPacketUserSize then size else networkPacketUserSize
  modifyPacket packet fun p => { p with
    data := writeBytes ((List.range size.toNat).map data) p.index p.data, length := size }
  udpSendZeroCopy packet sourcePort destPort ip

def udpListen (port : Port) (maxPacketCount : Int) : Net Unit := do
  match (← get).udp.freeConnections with
  | [] => throw .nullPointer
  | connection :: rest =>
    modify fun s => s.setConnectionLists rest s.udp.usedConnections
    modifyConnection connection fun c => { c with
      maxPacketCount := maxPacketCount, port := port, packetCount := 0 }
    modify fun s => s.setConnectionLists s.udp.freeConnections (connection :: s.udp.usedConnections)

def findConnection (udp : Udp) (port : Port) : Option UdpConnectionId :=
  udp.usedConnections.find? fun connection => (udp.connections connection).port = port

def udpReceiveZeroCopy (port : Port) : Net (Option PacketId) := do
  match findConnection (← get).udp port with
  | none => return none
  | some connection =>
    let c := (← get).udp.connections connection
    if c.packetCount = 0 then
      return none
    else
      match c.packetQueue with
      | [] => throw .nullPointer
      | packet :: rest =>
        modifyConnection connection fun c => { c with
          packetQueue := rest, packetCount := c.packetCount - 1 }
        emit (.udpTaken port packet (← getPacket packet))
        return some packet

/-- The bytes that end up in the caller's buffer. -/
def udpReceive (size : Int) (port : Port) : Net (List UInt8) := do
  match (← udpReceiveZeroCopy port) with
  | none => return []
  | some packet =>
    let p ← getPacket packet
    let size := if size < p.length then size else p.length
    freeNetworkPacket packet
    return readBytes p.data p.index size.toNat

/-- `handle_udp` frees the oldest packet of a queue that has become too long. -/
def udpLimitQueue (connection : UdpConnectionId) : Net Unit := do
  let c := (← get).udp.connections connection
  if c.packetCount > c.maxPacketCount then
    match c.packetQueue with
    | [] => throw .nullPointer
    | freeThis :: rest =>
      modifyConnection connection fun c => { c with packetQueue := rest }
      freeNetworkPacket freeThis
      modifyConnection connection fun c => { c with packetCount := c.packetCount - 1 }

/-- The queueing part of `handle_udp`. -/
def udpQueuePacket (connection : UdpConnectionId) (packet : PacketId) : Net Unit := do
  modifyConnection connection fun c => { c with
    packetQueue := c.packetQueue ++ [packet], packetCount := c.packetCount + 1 }
  recordWindow .udpQueue packet 0
  emit (.udpQueued ((← get).udp.connections connection).port packet)
  udpLimitQueue connection

def handleUdp (packet : PacketId) : Net Unit := do
  let p ← getPacket packet
  if sizeT p.length ≤ udpHeaderSize then
    freeNetworkPacket packet
  else
    recordWindow .handleUdp packet udpHeaderSize
    let destPort := readBe16 p.data (p.index + 2)
    modifyPacket packet fun p => { p with
      index := p.index + udpHeaderSize
      length := p.length - udpHeaderSize
      sourcePort := readBe16 p.data p.index }
    match findConnection (← get).udp destPort with
    | none => freeNetworkPacket packet
    | some connection => udpQueuePacket connection packet

end MiniIp.Source
