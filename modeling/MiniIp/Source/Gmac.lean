import MiniIp.Source.Network

/-!
# The GMAC driver

Source: driver/gmac.c:144-213 (`gmac_init`, its descriptor part), 222-287
(`gmac_send`, `gmac_receive`). The two hardware actions `gmacReceiveDone` and
`gmacTransmitDone` are what the DMA does to the descriptors it owns; they have
no counterpart in the source. The control registers that start the hardware
are not state of the model.
-/

set_option autoImplicit false

namespace MiniIp.Source

namespace Stack

@[simps! -fullyApplied]
def setTxPacket (s : Stack) (slot : Fin 8) (packet : PacketId) : Stack :=
  { s with gmac.txPackets := Function.update s.gmac.txPackets slot (some packet) }

@[simps! -fullyApplied]
def setTxDescriptor (s : Stack) (slot : Fin 8) (descriptor : TxDescriptor) : Stack :=
  { s with gmac.txDescriptors := Function.update s.gmac.txDescriptors slot descriptor }

@[simps! -fullyApplied]
def setTxIndex (s : Stack) (index : Fin 8) : Stack :=
  { s with gmac.txIndex := index }

@[simps! -fullyApplied]
def setRxPacket (s : Stack) (slot : Fin 32) (packet : PacketId) : Stack :=
  { s with gmac.rxPackets := Function.update s.gmac.rxPackets slot (some packet) }

@[simps! -fullyApplied]
def setRxDescriptor (s : Stack) (slot : Fin 32) (descriptor : RxDescriptor) : Stack :=
  { s with gmac.rxDescriptors := Function.update s.gmac.rxDescriptors slot descriptor }

@[simps! -fullyApplied]
def setRxIndex (s : Stack) (index : Fin 32) : Stack :=
  { s with gmac.rxIndex := index }

end Stack

/-- The loops of `gmac_init` over the remaining slots. -/
def gmacInitTransmit : List (Fin 8) → Net Unit
  | [] => pure ()
  | slot :: rest => do
    let packet ← allocateNetworkPacket
    modify fun s => s.setTxPacket slot packet
    modify fun s => s.setTxDescriptor slot { s.gmac.txDescriptors slot with owner := .cpu }
    gmacInitTransmit rest

def gmacInitReceive : List (Fin 32) → Net Unit
  | [] => pure ()
  | slot :: rest => do
    let packet ← allocateNetworkPacket
    modify fun s => s.setRxPacket slot packet
    gmacInitReceive rest

def gmacInit : Net Unit := do
  gmacInitTransmit (List.finRange 8)
  gmacInitReceive (List.finRange 32)
  modify fun s => (s.setTxIndex 0).setRxIndex 0

/-- `TSR & (1 << 8 | 1 << 4 | 1 << 2)`. -/
def transmitErrors (tsr : UInt32) : Bool := tsr &&& (0x114 : UInt32) ≠ 0

def gmacSend (packet : PacketId) : Net Unit := do
  recordWindow .gmacSend packet 0
  emit (.gmacSend packet (← getPacket packet).payload)
  let slot := (← get).gmac.txIndex
  if transmitErrors (← get).gmac.tsr then
    throw .transmitError
  else if ((← get).gmac.txDescriptors slot).owner = .gmac then
    -- network saturation
    freeNetworkPacket packet
  else
    match (← get).gmac.txPackets slot with
    | none => throw .nullPointer
    | some old =>
      freeNetworkPacket old
      modify fun s => s.setTxPacket slot packet
      let p ← getPacket packet
      modify fun s => s.setTxDescriptor slot
        { owner := .gmac, address := some (packet, p.index), length := p.length }
      modify fun s => s.setTxIndex (s.gmac.txIndex + 1)

def gmacReceive : Net (Option PacketId) := do
  let slot := (← get).gmac.rxIndex
  let descriptor := (← get).gmac.rxDescriptors slot
  if descriptor.owner = .gmac then
    return none
  else if descriptor.startOfFrame = false ∨ descriptor.endOfFrame = false then
    modify fun s => s.setRxDescriptor slot { descriptor with owner := .gmac }
    return none
  else
    match (← get).gmac.rxPackets slot with
    | none => throw .nullPointer
    | some packet =>
      modifyPacket packet fun p => { p with
        length := descriptor.length.val, index := 0, broadcast := descriptor.broadcastDetected }
      let next ← allocateNetworkPacket
      modify fun s => s.setRxPacket slot next
      modify fun s => s.setRxDescriptor slot { descriptor with owner := .gmac }
      modify fun s => s.setRxIndex (s.gmac.rxIndex + 1)
      return some packet

/-- What the receive DMA reports of one descriptor. -/
structure RxStatus where
  startOfFrame : Bool
  endOfFrame : Bool
  length : Fin 1025
  broadcastDetected : Bool

/-- The hardware stores received bytes in a buffer it owns and hands the descriptor over. -/
def gmacReceiveDone (slot : Fin 32) (status : RxStatus) (bytes : Memory) : Net Unit := do
  if ((← get).gmac.rxDescriptors slot).owner = .gmac then
    match (← get).gmac.rxPackets slot with
    | none => pure ()
    | some packet =>
      modifyPacket packet fun p => { p with
        data := fun offset => if 0 ≤ offset ∧ offset < 1024 then bytes offset else p.data offset }
      modify fun s => s.setRxDescriptor slot
        { owner := .cpu, startOfFrame := status.startOfFrame, endOfFrame := status.endOfFrame,
          length := status.length, broadcastDetected := status.broadcastDetected }
  else
    pure ()

/-- The hardware has transmitted the frame of a descriptor it owns. -/
def gmacTransmitDone (slot : Fin 8) : Net Unit :=
  modify fun s => s.setTxDescriptor slot { s.gmac.txDescriptors slot with owner := .cpu }

def setTransmitStatus (tsr : UInt32) : Net Unit :=
  modify fun s => { s with gmac.tsr := tsr }

end MiniIp.Source
