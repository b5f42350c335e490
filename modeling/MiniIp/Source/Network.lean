import MiniIp.Source.Stack

/-!
# The packet pool

Source: network.c:38-57 (`allocate_network_packet`, `free_network_packet`) and
the accessors network.c:77-110.
-/

set_option autoImplicit false

namespace MiniIp.Source

open MiniIp.Library.Wp

/-- The endless loop on an empty pool is the halt `poolEmpty`. -/
def allocateNetworkPacket : Net PacketId := do
  match (← get).freeNetworkPackets with
  | [] => throw .poolEmpty
  | packet :: rest =>
    modify fun s => s.setPool rest
    modifyPacket packet fun p => { p with length := 0, index := networkPacketHeaderSize }
    return packet

def freeNetworkPacket (packet : PacketId) : Net Unit := do
  modify fun s => s.setPool (packet :: s.freeNetworkPackets)
  emit (.freed packet)

@[simp] theorem wp_freeNetworkPacket {Q : Unit → Stack → Prop} {E : Halt → Stack → Prop} {s : Stack}
    (packet : PacketId) :
    wp (freeNetworkPacket packet) Q E s ↔
      Q () ((s.setPool (packet :: s.freeNetworkPackets)).observe (.freed packet)) := Iff.rfl

/-- `gmac_set_mac_address` only programs the address filter of the hardware. -/
def setOurMac (mac : Mac) : Net Unit :=
  modify fun s => { s with ourMac := mac }

def setOurIp (ip : Ip) : Net Unit :=
  modify fun s => { s with ourIp := ip }

def setOurNetmask (netmask : Ip) : Net Unit :=
  modify fun s => { s with ourNetmask := netmask }

end MiniIp.Source
