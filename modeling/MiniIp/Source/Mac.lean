import MiniIp.Source.Gmac

/-!
# Sending on the MAC layer

Source: mac.h:11-14, mac.c:11-15, 68-86 (`mac_send`, `mac_broadcast`). The
receiving side is in `MiniIp.Source.Receive`, behind the protocols it dispatches to.
-/

set_option autoImplicit false

namespace MiniIp.Source

def etherTypeIpv4 : UInt16 := 0x0800
def etherTypeArp : UInt16 := 0x0806

/-- `sizeof(MacHeader)`: target 0..5, sender 6..11, type 12..13. -/
def macHeaderSize : Int := 14

def macSend (packet : PacketId) (mac : Mac) (etherType : UInt16) : Net Unit := do
  modifyPacket packet fun p => { p with
    length := p.length + macHeaderSize, index := p.index - macHeaderSize }
  recordWindow .macSend packet macHeaderSize
  let ourMac := (← get).ourMac
  modifyPacket packet fun p => { p with
    data := writeBe16 etherType (p.index + 12)
      (writeMac ourMac (p.index + 6) (writeMac mac p.index p.data)) }
  emit (.macSend packet mac etherType)
  gmacSend packet

def broadcastMac : Mac := ⟨#v[0xFF, 0xFF, 0xFF, 0xFF, 0xFF, 0xFF]⟩

def macBroadcast (packet : PacketId) (etherType : UInt16) : Net Unit :=
  macSend packet broadcastMac etherType

end MiniIp.Source
