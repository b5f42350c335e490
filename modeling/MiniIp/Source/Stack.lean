import Mathlib.Algebra.Ring.Nat
import Mathlib.Tactic.Simps.Basic
import MiniIp.Library.Wp
import MiniIp.Source.Utilities

/-!
# The state of the stack

Source: the static variables and structures of network.h:20-37, network.c:12-21,
driver/gmac.c:29-89, arp.c:49-74, udp.h:11-20, udp.c:9-26, backoff.h:11-23,
dhcp.c:23-122, tftp.h:18-40. Packets, ARP entries and UDP connections are
objects named by their index in the source's static arrays, and the intrusive
lists are sequences of such names.

`Stack.trace` is an observation of the run, newest event first. The functions
write it and never read it; its length names the moments at which
`Application.residue` is read.

Each packet has a memory of its own, without bounds: a write in front of `data`
or behind it does not reach the packet's other fields or the next packet. This
is an assumption, and where a window leaves the buffer the model says no more
than that it does.
-/

set_option autoImplicit false

namespace MiniIp.Source

open MiniIp.Library.Wp

-- The slots of the two rings and the length of a received frame have numerals.

instance txSlots_neZero : NeZero 8 := ⟨by decide⟩

instance rxSlots_neZero : NeZero 32 := ⟨by decide⟩

instance frameLengths_neZero : NeZero 1025 := ⟨by decide⟩

/-- A pointer into `network_packets[NETWORK_PACKET_COUNT]`. -/
abbrev PacketId := Fin 96

def networkPacketHeaderSize : Int := 144
def networkPacketUserSize : Int := 880

structure NetworkPacket where
  data : Memory
  index : Int
  length : Int
  broadcast : Bool
  sendersIp : Ip
  targetIp : Ip
  sourcePort : Port

/-- The bytes `data[index..index + length)`. -/
def NetworkPacket.payload (packet : NetworkPacket) : List UInt8 :=
  readBytes packet.data packet.index packet.length.toNat

inductive Owner where
  | gmac | cpu
  deriving DecidableEq, Repr

/-- The DMA never writes more than the configured 1024 bytes of one buffer. The
buffer address is the one of `rx_packets[i]->data`, set wherever that slot is. -/
structure RxDescriptor where
  owner : Owner
  startOfFrame : Bool
  endOfFrame : Bool
  length : Fin 1025
  broadcastDetected : Bool

structure TxDescriptor where
  owner : Owner
  /-- The packet and the offset in its buffer that the DMA reads from. -/
  address : Option (PacketId × Int)
  length : Int

structure Gmac where
  txDescriptors : Fin 8 → TxDescriptor
  rxDescriptors : Fin 32 → RxDescriptor
  txPackets : Fin 8 → Option PacketId
  rxPackets : Fin 32 → Option PacketId
  txIndex : Fin 8
  rxIndex : Fin 32
  /-- The transmit status register `GMAC->TSR`. -/
  tsr : UInt32

structure ArpEntry where
  mac : Mac
  ip : Ip
  containValidMapping : Bool
  time : Time
  retryCount : Nat
  packetQueue : List PacketId
  packetCount : Int

abbrev ArpEntryId := Fin 8

structure Arp where
  entries : ArpEntryId → ArpEntry
  freeEntries : List ArpEntryId
  usedEntries : List ArpEntryId

structure UdpConnection where
  port : Port
  packetQueue : List PacketId
  packetCount : Int
  maxPacketCount : Int

abbrev UdpConnectionId := Fin 16

structure Udp where
  connections : UdpConnectionId → UdpConnection
  freeConnections : List UdpConnectionId
  usedConnections : List UdpConnectionId

structure Backoff where
  startTimeout : Time
  maxTimeout : Time
  timeout : Time
  timeoutWithJitter : Time
  time : Time
  count : Nat
  jitterFraction : UInt32
  deriving DecidableEq, Repr

inductive DhcpState where
  | disabled | discover | requesting | bound | renewing | rebinding | error
  deriving DecidableEq, Repr

inductive DhcpPacketType where
  | request | discover | renew | rebind | release
  deriving DecidableEq, Repr

structure Dhcp where
  state : DhcpState
  transactionId : UInt32
  time : Time
  leaseTime : Time
  leasedIp : Ip
  serverIp : Ip
  netmask : Ip
  backoff : Backoff
  aquisitionCount : Nat
  deriving DecidableEq, Repr

/-- The static record that `dhcp_read` fills; `mask` is the bit set of `OPTION_*`. -/
structure DhcpOptions where
  mask : Nat
  yourIp : Ip
  serverIp : Ip
  netmask : Ip
  messageType : UInt8
  leaseTime : Time
  deriving DecidableEq, Repr

inductive TftpState where
  | request | read | done | error
  deriving DecidableEq, Repr

structure TftpConnection where
  serverIp : Ip
  clientPort : Port
  serverPort : Port
  blockNumber : UInt16
  state : TftpState
  backoff : Backoff
  filename : Vector UInt8 64
  /-- The bytes in memory behind the structure, up to the first zero. -/
  behind : List UInt8
  deriving DecidableEq

/-- The places where a packet's window in its buffer matters. -/
inductive Site where
  | handleMac | handleIp | handleUdp | handleIcmp | handleArp
  | udpSendZeroCopy | ipSend | macSend | sendArpPacket
  | gmacSend | arpQueue | udpQueue
  deriving DecidableEq, Repr

inductive Event where
  /-- A header of `headerSize` bytes is placed at `data[index]`, or the packet is handed on. -/
  | window (site : Site) (index length : Int) (headerSize : Int)
  | freed (packet : PacketId)
  | macSend (packet : PacketId) (mac : Mac) (etherType : UInt16)
  | gmacSend (packet : PacketId) (frame : List UInt8)
  | arpSend (packet : PacketId) (ip : Ip)
  | arpEvicted (entry : ArpEntryId)
  | arpMapped (ip : Ip) (mac : Mac)
  | udpSend (sourcePort destPort : Port) (ip : Ip) (payload : List UInt8)
  | udpQueued (port : Port) (packet : PacketId)
  | udpTaken (port : Port) (packet : PacketId) (content : NetworkPacket)
  | dhcpSent (type : DhcpPacketType)
  | dhcpState (state : DhcpState)
  | dhcpOffer
  | dhcpAck

/-- The memory of the program that runs on the stack: the connection it downloads with, and
the bytes `tftp_read` has returned for it. -/
structure Application where
  connection : TftpConnection
  received : List UInt8
  /-- The six bytes that a dead local variable has left, at each length of the trace. They are
  arbitrary, and no function writes them. -/
  residue : Nat → Mac

structure Stack where
  packets : PacketId → NetworkPacket
  freeNetworkPackets : List PacketId
  ourMac : Mac
  ourIp : Ip
  ourNetmask : Ip
  gmac : Gmac
  arp : Arp
  udp : Udp
  dhcp : Dhcp
  options : DhcpOptions
  application : Application
  /-- The value `get_time` returns. -/
  time : Time
  /-- The values `random` returns, and how many of them have been drawn. -/
  entropy : Nat → UInt32
  drawn : Nat
  trace : List Event

/-- Why a call never returns: the two endless loops of the source, and the use of the node
that `list_remove_first` or `list_get_first` did not find. -/
inductive Halt where
  | poolEmpty | transmitError | nullPointer
  deriving DecidableEq, Repr

-- One function for each kind of assignment to the state, with its `simp` lemmas: what is assigned, and that the rest
-- stays.

namespace Stack

@[simps -fullyApplied]
def observe (s : Stack) (event : Event) : Stack :=
  { s with trace := event :: s.trace }

@[simps -fullyApplied]
def write (s : Stack) (packet : PacketId) (content : NetworkPacket) : Stack :=
  { s with packets := Function.update s.packets packet content }

@[simps -fullyApplied]
def setPool (s : Stack) (free : List PacketId) : Stack :=
  { s with freeNetworkPackets := free }

@[simps! -fullyApplied]
def setEntry (s : Stack) (entry : ArpEntryId) (value : ArpEntry) : Stack :=
  { s with arp.entries := Function.update s.arp.entries entry value }

@[simps! -fullyApplied]
def setEntryLists (s : Stack) (free used : List ArpEntryId) : Stack :=
  { s with arp.freeEntries := free, arp.usedEntries := used }

@[simps! -fullyApplied]
def setConnection (s : Stack) (connection : UdpConnectionId) (value : UdpConnection) : Stack :=
  { s with udp.connections := Function.update s.udp.connections connection value }

@[simps! -fullyApplied]
def setConnectionLists (s : Stack) (free used : List UdpConnectionId) : Stack :=
  { s with udp.freeConnections := free, udp.usedConnections := used }

@[simps -fullyApplied]
def setDhcp (s : Stack) (dhcp : Dhcp) : Stack :=
  { s with dhcp := dhcp }

@[simps -fullyApplied]
def setOptions (s : Stack) (options : DhcpOptions) : Stack :=
  { s with options := options }

@[simps -fullyApplied]
def draw (s : Stack) : Stack :=
  { s with drawn := s.drawn + 1 }

end Stack

/-- A function of the stack. -/
abbrev Net := EStateM Halt Stack

def emit (event : Event) : Net Unit :=
  modify fun s => s.observe event

def getPacket (packet : PacketId) : Net NetworkPacket := do
  return (← get).packets packet

def modifyPacket (packet : PacketId) (f : NetworkPacket → NetworkPacket) : Net Unit :=
  modify fun s => s.write packet (f (s.packets packet))

def modifyEntry (entry : ArpEntryId) (f : ArpEntry → ArpEntry) : Net Unit :=
  modify fun s => s.setEntry entry (f (s.arp.entries entry))

def modifyConnection (connection : UdpConnectionId) (f : UdpConnection → UdpConnection) :
    Net Unit :=
  modify fun s => s.setConnection connection (f (s.udp.connections connection))

def modifyDhcp (f : Dhcp → Dhcp) : Net Unit :=
  modify fun s => s.setDhcp (f s.dhcp)

def getTime : Net Time := do
  return (← get).time

def random : Net UInt32 := do
  let s ← get
  modify fun s => s.draw
  return s.entropy s.drawn

/-- Observe the window of a packet in its buffer. -/
def recordWindow (site : Site) (packet : PacketId) (headerSize : Int) : Net Unit := do
  let p ← getPacket packet
  emit (.window site p.index p.length headerSize)

section Steps

variable {Q : Unit → Stack → Prop} {E : Halt → Stack → Prop} {s : Stack}

@[simp] theorem wp_emit (event : Event) : wp (emit event) Q E s ↔ Q () (s.observe event) :=
  Iff.rfl

@[simp] theorem wp_getPacket {Q : NetworkPacket → Stack → Prop} (packet : PacketId) :
    wp (getPacket packet) Q E s ↔ Q (s.packets packet) s := Iff.rfl

@[simp] theorem wp_modifyPacket (packet : PacketId) (f : NetworkPacket → NetworkPacket) :
    wp (modifyPacket packet f) Q E s ↔ Q () (s.write packet (f (s.packets packet))) := Iff.rfl

@[simp] theorem wp_modifyEntry (entry : ArpEntryId) (f : ArpEntry → ArpEntry) :
    wp (modifyEntry entry f) Q E s ↔ Q () (s.setEntry entry (f (s.arp.entries entry))) := Iff.rfl

@[simp] theorem wp_modifyConnection (connection : UdpConnectionId)
    (f : UdpConnection → UdpConnection) :
    wp (modifyConnection connection f) Q E s ↔
      Q () (s.setConnection connection (f (s.udp.connections connection))) := Iff.rfl

@[simp] theorem wp_modifyDhcp (f : Dhcp → Dhcp) :
    wp (modifyDhcp f) Q E s ↔ Q () (s.setDhcp (f s.dhcp)) := Iff.rfl

@[simp] theorem wp_getTime {Q : Time → Stack → Prop} : wp getTime Q E s ↔ Q s.time s := Iff.rfl

@[simp] theorem wp_random {Q : UInt32 → Stack → Prop} :
    wp random Q E s ↔ Q (s.entropy s.drawn) s.draw := Iff.rfl

@[simp] theorem wp_recordWindow (site : Site) (packet : PacketId) (headerSize : Int) :
    wp (recordWindow site packet headerSize) Q E s ↔
      Q () (s.observe (.window site (s.packets packet).index (s.packets packet).length headerSize)) :=
  Iff.rfl

end Steps

end MiniIp.Source
