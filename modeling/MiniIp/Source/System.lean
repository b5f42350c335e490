import MiniIp.Source.Dhcp
import MiniIp.Source.Tftp

/-!
# The running system

Source: network.c:25-73 (`network_init`, `network_task`). An `Op` is one
top-level call, or one action of the hardware or the clock between calls. All
static variables of the source start at zero.
-/

set_option autoImplicit false

namespace MiniIp.Source

@[irreducible] def networkInit : Net Unit := do
  modify fun s => { s with freeNetworkPackets := (List.finRange 96).reverse }
  arpInit
  udpInit

/-- One round of the receive loop of `network_task`: whether there was a packet. -/
def receivePacket : Net Bool := do
  match (← gmacReceive) with
  | none => return false
  | some packet =>
    handleMac packet
    return true

def networkTaskReceive : Nat → Net Unit
  | 0 => pure ()
  | n + 1 => do
    if (← receivePacket) then
      networkTaskReceive n

def networkTask : Net Unit := do
  networkTaskReceive 32
  arpTask
  dhcpTask

/-- A caller of `arp_send`: a packet with at most `networkPacketUserSize` bytes of content. -/
def sendToIp (bytes : List UInt8) (ip : Ip) : Net Unit := do
  let packet ← allocateNetworkPacket
  let bytes := bytes.take 880
  modifyPacket packet fun p => { p with
    data := writeBytes bytes p.index p.data, length := bytes.length }
  arpSend packet ip

def Application.start (residue : Nat → Mac) (connection : TftpConnection) : Application :=
  ⟨connection, [], residue⟩

def downloadFile (filename : List UInt8) (serverIp : Ip) : Net Unit := do
  let connection ← tftpDownloadFile (← get).application.connection filename serverIp
  modify fun s => { s with application := .start s.application.residue connection }

/-- The application appends what it reads to what it has. -/
def readFile (size : Int) : Net Unit := do
  let (result, connection) ← tftpRead (← get).application.connection size
  modify fun s => { s with
    application := ⟨connection, s.application.received ++ result.bytes, s.application.residue⟩ }

inductive Op where
  | receiveDone (slot : Fin 32) (status : RxStatus) (bytes : Memory)
  | transmitDone (slot : Fin 8)
  | transmitStatus (tsr : UInt32)
  | tick (now : Time)
  | receive
  | arpTask
  | sendToIp (bytes : List UInt8) (ip : Ip)
  | udpListen (port : Port) (maxPacketCount : Int)
  | udpSend (data : Nat → UInt8) (size : Int) (sourcePort destPort : Port) (ip : Ip)
  | udpReceive (size : Int) (port : Port)
  | dhcpStart
  | dhcpTask
  | dhcpRelease
  | downloadFile (filename : List UInt8) (serverIp : Ip)
  | readFile (size : Int)
  | abortDownload (errorMessage : List UInt8)
  | setOurMac (mac : Mac)
  | setOurIp (ip : Ip)
  | setOurNetmask (netmask : Ip)

def Op.exec : Op → Net Unit
  | receiveDone slot status bytes => gmacReceiveDone slot status bytes
  | transmitDone slot => gmacTransmitDone slot
  | transmitStatus tsr => setTransmitStatus tsr
  | tick now => modify fun s => { s with time := now }
  | receive => do let _ ← receivePacket
  | arpTask => Source.arpTask
  | sendToIp bytes ip => Source.sendToIp bytes ip
  | udpListen port maxPacketCount => Source.udpListen port maxPacketCount
  | udpSend data size sourcePort destPort ip => Source.udpSend data size sourcePort destPort ip
  | udpReceive size port => do let _ ← Source.udpReceive size port
  | dhcpStart => Source.dhcpStart
  | dhcpTask => Source.dhcpTask
  | dhcpRelease => Source.dhcpRelease
  | downloadFile filename serverIp => Source.downloadFile filename serverIp
  | readFile size => Source.readFile size
  | abortDownload errorMessage => do
    tftpAbortDownload (← get).application.connection errorMessage
  | setOurMac mac => Source.setOurMac mac
  | setOurIp ip => Source.setOurIp ip
  | setOurNetmask netmask => Source.setOurNetmask netmask

/-- A buffer that starts with the given bytes. -/
def memoryOf (bytes : List UInt8) : Memory :=
  fun offset => if 0 ≤ offset then bytes.getD offset.toNat 0 else 0

/-- The hardware delivers one whole frame to a slot. -/
def Op.deliver (slot : Fin 32) (length : Fin 1025) (bytes : List UInt8) : Op :=
  .receiveDone slot ⟨true, true, length, false⟩ (memoryOf bytes)

/-- A frame with one UDP datagram from 10.0.0.2 to 10.0.0.1. The receiver looks at no checksum. -/
def udpFrame (sourcePort destPort : Port) (payload : List UInt8) : List UInt8 :=
  [0xFF, 0xFF, 0xFF, 0xFF, 0xFF, 0xFF, 2, 0, 0, 0, 0, 1, 0x08, 0x00, 0x45, 0] ++
    be16Bytes (UInt16.ofNat (28 + payload.length)) ++
    [0, 0, 0, 0, 64, 17, 0, 0, 10, 0, 0, 2, 10, 0, 0, 1] ++
    be16Bytes sourcePort ++ be16Bytes destPort ++
    be16Bytes (UInt16.ofNat (8 + payload.length)) ++ [0, 0] ++ payload

/-- The hardware delivers a datagram, in a frame of at least 60 bytes. -/
def Op.deliverUdp (slot : Fin 32) (sourcePort destPort : Port) (payload : List UInt8) : Op :=
  .deliver slot (Fin.ofNat 1025 (max 60 (42 + payload.length))) (udpFrame sourcePort destPort payload)

def zeroPacket : NetworkPacket where
  data := fun _ => 0
  index := 0
  length := 0
  broadcast := false
  sendersIp := 0
  targetIp := 0
  sourcePort := 0

def zeroBackoff : Backoff := ⟨0, 0, 0, 0, 0, 0, 0⟩

/-- An application whose memory is zero. -/
def zeroApplication : Application where
  connection := ⟨0, 0, 0, 0, .request, zeroBackoff, Vector.replicate 64 0, []⟩
  received := []
  residue := fun _ => zeroMac

/-- Static storage before `main`; the application's memory, the clock and the random numbers
are arbitrary. -/
def powerOn (application : Application) (time : Time) (entropy : Nat → UInt32) : Stack where
  packets := fun _ => zeroPacket
  freeNetworkPackets := []
  ourMac := zeroMac
  ourIp := 0
  ourNetmask := 0
  gmac :=
    { txDescriptors := fun _ => ⟨.gmac, none, 0⟩
      rxDescriptors := fun _ => ⟨.gmac, false, false, 0, false⟩
      txPackets := fun _ => none
      rxPackets := fun _ => none
      txIndex := 0
      rxIndex := 0
      tsr := 0 }
  arp :=
    { entries := fun _ => ⟨zeroMac, 0, false, 0, 0, [], 0⟩
      freeEntries := []
      usedEntries := [] }
  udp :=
    { connections := fun _ => ⟨0, [], 0, 0⟩
      freeConnections := []
      usedConnections := [] }
  dhcp := ⟨.disabled, 0, 0, 0, 0, 0, 0, zeroBackoff, 0⟩
  options := ⟨0, 0, 0, 0, 0, 0⟩
  application := application
  time := time
  entropy := entropy
  drawn := 0
  trace := []

@[irreducible] def boot : Net Unit := do
  networkInit
  gmacInit

/-- The state in which `boot` returns. -/
@[irreducible] def booted (application : Application) (time : Time) (entropy : Nat → UInt32) : Stack :=
  match boot (powerOn application time entropy) with
  | .ok _ s => s
  | .error _ s => s

end MiniIp.Source
