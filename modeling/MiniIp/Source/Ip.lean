import MiniIp.Source.Arp

/-!
# Sending on the IP layer

Source: ip.c:10-31, 86-141, and the checksum loops of udp.c:40-70 and
icmp.c:24-44, which are one sum over 16-bit words.
-/

set_option autoImplicit false

namespace MiniIp.Source

def ipProtocolUdp : UInt8 := 17
def ipProtocolIcmp : UInt8 := 1

def ipFlagDontFragment : UInt16 := 0x4000
def ipFlagMoreFragments : UInt16 := 0x8000

/-- `sizeof(IpHeader)`: version and length 0, service 1, length 2, id 4, fragment offset 6,
time to live 8, protocol 9, checksum 10, sender 12, target 16. -/
def ipHeaderSize : Int := 20

/-- The loop over 16-bit words, with the odd byte at the end. -/
def sumWords (memory : Memory) : Nat → Int → UInt32 → UInt32
  | 0, _, sum => sum
  | 1, pointer, sum => sum + (memory pointer).toUInt32 <<< 8
  | size + 2, pointer, sum =>
    sumWords memory size (pointer + 2) (sum + (readBe16 memory pointer).toUInt32)

/-- `while (sum >> 16)`; two rounds always suffice for a 32-bit sum. -/
def foldCarry (sum : UInt32) : UInt32 :=
  let once := (sum &&& (0xFFFF : UInt32)) + (sum >>> 16)
  (once &&& (0xFFFF : UInt32)) + (once >>> 16)

def computeChecksum (memory : Memory) (pointer : Int) (size : Nat) (sum : UInt32) : UInt16 :=
  ~~~ (foldCarry (sumWords memory size pointer sum)).toUInt16

def computeIpChecksum (memory : Memory) (header : Int) : UInt16 :=
  computeChecksum memory header 20 0

def shouldBroadcast (ourNetmask ip : Ip) : Bool :=
  (~~~ ourNetmask &&& ip) = ~~~ ourNetmask

/-- Assign a bit field in the low or high bits of a byte, keeping the bits of `keep`. -/
def writeBits (keep value : UInt8) (pointer : Int) (memory : Memory) : Memory :=
  writeByte (memory pointer &&& keep ||| value) pointer memory

/-- The header of `ip_send` up to its checksum. -/
def writeIpFields (length : UInt16) (protocol : UInt8) (sendersIp targetIp : Ip) (header : Int)
    (memory : Memory) : Memory :=
  let memory := writeBits 0x0F 0x40 header memory
  let memory := writeBits 0xF0 0x05 header memory
  let memory := writeBits 0x03 0x00 (header + 1) memory
  let memory := writeBits 0xFC 0x00 (header + 1) memory
  let memory := writeByte 0xFF (header + 8) memory
  let memory := writeByte protocol (header + 9) memory
  let memory := writeBe16 length (header + 2) memory
  let memory := writeBe16 0 (header + 4) memory
  let memory := writeBe16 ipFlagDontFragment (header + 6) memory
  let memory := writeBe16 0 (header + 10) memory
  let memory := writeBe32 sendersIp (header + 12) memory
  writeBe32 targetIp (header + 16) memory

def writeIpHeader (length : UInt16) (protocol : UInt8) (sendersIp targetIp : Ip) (header : Int)
    (memory : Memory) : Memory :=
  let memory := writeIpFields length protocol sendersIp targetIp header memory
  writeBe16 (computeIpChecksum memory header) (header + 10) memory

/-- `mac_send_to_ip` of mac.c is `arp_send`. -/
def ipSend (packet : PacketId) (ip : Ip) (protocol : UInt8) : Net Unit := do
  modifyPacket packet fun p => { p with
    index := p.index - ipHeaderSize, length := p.length + ipHeaderSize }
  recordWindow .ipSend packet ipHeaderSize
  let s ← get
  modifyPacket packet fun p => { p with
    data := writeIpHeader (UInt16.ofInt p.length) protocol s.ourIp ip p.index p.data }
  if shouldBroadcast s.ourNetmask ip then
    macBroadcast packet etherTypeIpv4
  else
    arpSend packet ip

end MiniIp.Source
