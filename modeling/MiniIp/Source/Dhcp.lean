import MiniIp.Source.Backoff
import MiniIp.Source.Receive

/-!
# DHCP client

Source: dhcp.c:11-503.
-/

set_option autoImplicit false

namespace MiniIp.Source

def dhcpStartTimeout : Time := 500
def dhcpMaxTimeout : Time := 60000
def dhcpJitterFraction : UInt32 := 4

def dhcpServerPort : Port := 67
def dhcpClientPort : Port := 68

def dhcpMessageTypeDiscover : UInt8 := 1
def dhcpMessageTypeOffer : UInt8 := 2
def dhcpMessageTypeRequest : UInt8 := 3
def dhcpMessageTypeAck : UInt8 := 5
def dhcpMessageTypeNack : UInt8 := 6
def dhcpMessageTypeRelease : UInt8 := 7

def dhcpOptionSubnetMask : UInt8 := 1
def dhcpOptionRequestedIpAddress : UInt8 := 50
def dhcpOptionLeaseTime : UInt8 := 51
def dhcpOptionMessageType : UInt8 := 53
def dhcpOptionServerIdentifier : UInt8 := 54
def dhcpOptionEnd : UInt8 := 255

def dhcpOpcodeRequest : UInt8 := 1
def dhcpOpcodeReply : UInt8 := 2

def optionServerIp : Nat := 1
def optionNetmask : Nat := 4
def optionMessageType : Nat := 8
def optionLeaseTime : Nat := 16

def magicCookie : UInt32 := 0x63825363

/-- `sizeof(DhcpHeader)`: opcode 0, hardware 1..3, transaction id 4, seconds 8, flags 10,
client IP 12, your IP 16, next server 20, relay agent 24, client MAC 28, host name 44, boot
file name 108, magic cookie 236. -/
def dhcpHeaderSize : Int := 240

/-- An assignment to `dhcp.state`. -/
def setDhcpState (state : DhcpState) : Net Unit := do
  modifyDhcp fun d => { d with state := state }
  emit (.dhcpState state)

def dhcpStart : Net Unit := do
  setDhcpState .discover
  let transactionId ← random
  let now ← getTime
  modifyDhcp fun d => { d with
    transactionId := transactionId
    time := now
    backoff := backoffInit d.backoff dhcpStartTimeout dhcpMaxTimeout dhcpJitterFraction }
  udpListen dhcpClientPort 1

def messageTypeOption (messageType : UInt8) : List UInt8 :=
  [dhcpOptionMessageType, 1, messageType]

/-- The bytes `write_be32` stores. -/
def be32Bytes (value : UInt32) : List UInt8 :=
  [(value >>> 24).toUInt8, (value >>> 16).toUInt8, (value >>> 8).toUInt8, value.toUInt8]

def requestedIpAddressOption (ip : Ip) : List UInt8 :=
  dhcpOptionRequestedIpAddress :: 4 :: be32Bytes ip

def serverIdentifierOption (ip : Ip) : List UInt8 :=
  dhcpOptionServerIdentifier :: 4 :: be32Bytes ip

/-- The options of `dhcp_send_packet`, up to the END that `finalize_options` adds. -/
def dhcpPacketOptions (d : Dhcp) : DhcpPacketType → List UInt8
  | .discover => messageTypeOption dhcpMessageTypeDiscover
  | .request => messageTypeOption dhcpMessageTypeRequest ++
      requestedIpAddressOption d.leasedIp ++ serverIdentifierOption d.serverIp
  | .renew => messageTypeOption dhcpMessageTypeRequest
  | .release => messageTypeOption dhcpMessageTypeRelease ++ serverIdentifierOption d.serverIp
  | .rebind => []

/-- The fields of `DhcpHeader` in the order in which `dhcp_send_packet` assigns them. -/
def writeDhcpHeader (d : Dhcp) (ourMac : Mac) (now : Time) (header : Int) (memory : Memory) :
    Memory :=
  let memory := writeByte dhcpOpcodeRequest header memory
  let memory := writeByte 1 (header + 1) memory
  let memory := writeByte 6 (header + 2) memory
  let memory := writeByte 0 (header + 3) memory
  let memory := writeBe32 d.transactionId (header + 4) memory
  let memory := writeBe16 (getElapsed d.time now / 1000).toUInt16 (header + 8) memory
  let memory := writeBe16 0 (header + 10) memory
  let memory := writeBe32 0 (header + 12) memory
  let memory := writeBe32 0 (header + 16) memory
  let memory := writeBe32 0 (header + 20) memory
  let memory := writeBe32 0 (header + 24) memory
  let memory := writeBe32 magicCookie (header + 236) memory
  writeMac ourMac (header + 28) memory

/-- The header fields that depend on the kind of packet. -/
def writeDhcpKind (d : Dhcp) (header : Int) (memory : Memory) : DhcpPacketType → Memory
  | .renew => writeBe32 d.leasedIp (header + 12) memory
  | .release => writeBe16 0 (header + 8) (writeBe32 d.leasedIp (header + 12) memory)
  | .discover | .request | .rebind => memory

def dhcpSendPacket (type : DhcpPacketType) : Net Unit := do
  let packet ← allocateNetworkPacket
  let s ← get
  let options := dhcpPacketOptions s.dhcp type ++ [dhcpOptionEnd]
  modifyPacket packet fun p => { p with
    data := writeDhcpKind s.dhcp p.index (writeBytes options (p.index + dhcpHeaderSize)
      (writeDhcpHeader s.dhcp s.ourMac s.time p.index p.data)) type
    length := dhcpHeaderSize + options.length }
  emit (.dhcpSent type)
  udpSendZeroCopy packet dhcpClientPort dhcpServerPort 0xFFFFFFFF

def verifyDhcpHeader (transactionId : UInt32) (ourMac : Mac) (memory : Memory) (header : Int) :
    Bool :=
  if memory (header + 1) ≠ 1 then false
  else if memory header ≠ dhcpOpcodeReply then false
  else if memory (header + 2) ≠ 6 then false
  else if readBe32 memory (header + 236) ≠ magicCookie then false
  else if readBe32 memory (header + 4) ≠ transactionId then false
  else if readMac memory (header + 28) ≠ ourMac then false
  else true

/-- The body of the option loop behind the length check: what an option of type `type` and
length `optionLength` at `pointer` does to the record, `none` where its length is refused. -/
def storeOption (memory : Memory) (type : UInt8) (optionLength pointer : Int)
    (options : DhcpOptions) : Option DhcpOptions :=
  if type = dhcpOptionSubnetMask then
    if optionLength ≠ 4 then none
    else some { options with
      mask := options.mask ||| optionNetmask, netmask := readBe32 memory pointer }
  else if type = dhcpOptionLeaseTime then
    if optionLength ≠ 4 then none
    else some { options with
      mask := options.mask ||| optionLeaseTime, leaseTime := readBe32 memory pointer }
  else if type = dhcpOptionServerIdentifier then
    if optionLength ≠ 4 then none
    else some { options with
      mask := options.mask ||| optionServerIp, serverIp := readBe32 memory pointer }
  else if type = dhcpOptionMessageType then
    if optionLength ≠ 1 then none
    else some { options with
      mask := options.mask ||| optionMessageType, messageType := memory pointer }
  else
    some options

/-- The inner loop: `while (option_pointer[0] == 0 && length)`. -/
def skipPadding (memory : Memory) : Nat → Int → Nat × Int
  | 0, pointer => (0, pointer)
  | length + 1, pointer =>
    if memory pointer = 0 then skipPadding memory length (pointer + 1) else (length + 1, pointer)

/-- The option loop of `dhcp_read`. Every round takes at least two bytes, so a fuel above the
length is never used up. The record keeps what a refused packet has already stored. -/
def readOptions (memory : Memory) : Nat → Int → Int → DhcpOptions → Bool × DhcpOptions
  | 0, _, _, options => (false, options)
  | fuel + 1, pointer, length, options =>
    if memory pointer = dhcpOptionEnd then (true, options)
    else if length < 2 then (false, options)
    else
      let optionLength : Int := (memory (pointer + 1)).toNat
      if optionLength > length - 2 then (false, options)
      else
        match storeOption memory (memory pointer) optionLength (pointer + 2) options with
        | none => (false, options)
        | some options =>
          let rest := skipPadding memory (length - 2 - optionLength).toNat (pointer + 2 + optionLength)
          if rest.1 = 0 then (false, options)
          else readOptions memory fuel rest.2 rest.1 options

/-- `dhcp_read` on the packet it has taken. The `int` difference of the packet length and
`sizeof(DhcpHeader)` is negative for short packets. -/
def readDhcpPacket (transactionId : UInt32) (ourMac : Mac) (p : NetworkPacket)
    (options : DhcpOptions) : Bool × DhcpOptions :=
  if verifyDhcpHeader transactionId ourMac p.data p.index = false then (false, options)
  else
    let length := p.length - dhcpHeaderSize
    readOptions p.data (length.toNat + 1) (p.index + dhcpHeaderSize) length
      { options with yourIp := readBe32 p.data (p.index + 16), mask := 0 }

def dhcpRead : Net Bool := do
  match (← udpReceiveZeroCopy dhcpClientPort) with
  | none => return false
  | some packet =>
    let p ← getPacket packet
    let s ← get
    let result := readDhcpPacket s.dhcp.transactionId s.ourMac p s.options
    modify fun s => s.setOptions result.2
    freeNetworkPacket packet
    return result.1

/-- `OPTION_LEASE_TIME | OPTION_SERVER_IP | OPTION_MESSAGE_TYPE` -/
def expectedMask : Nat := optionLeaseTime ||| optionServerIp ||| optionMessageType

def tryReadOffer : Net Bool := do
  if (← dhcpRead) = false then
    return false
  else
    let options := (← get).options
    if options.mask &&& expectedMask ≠ expectedMask ∨ options.messageType ≠ dhcpMessageTypeOffer then
      return false
    else
      modifyDhcp fun d => { d with
        netmask := options.netmask, serverIp := options.serverIp, leasedIp := options.yourIp }
      emit .dhcpOffer
      return true

/-- `some is_ack` where the source returns true. -/
def tryReadAck : Net (Option Bool) := do
  if (← dhcpRead) = false then
    return none
  else
    let options := (← get).options
    let d := (← get).dhcp
    if options.mask &&& expectedMask ≠ expectedMask then
      return none
    else if options.messageType = dhcpMessageTypeNack then
      return some false
    else if options.messageType ≠ dhcpMessageTypeAck then
      return none
    else if options.netmask ≠ d.netmask ∨ options.serverIp ≠ d.serverIp ∨
        options.yourIp ≠ d.leasedIp then
      return none
    else
      let now ← getTime
      modifyDhcp fun d => { d with time := now, leaseTime := options.leaseTime * 1000 }
      emit .dhcpAck
      return some true

def renewingExpired (d : Dhcp) (now : Time) : Bool :=
  getElapsed d.time now > d.leaseTime / 2

def rebindingExpired (d : Dhcp) (now : Time) : Bool :=
  getElapsed d.time now > 3 * d.leaseTime / 4

/-- `if (backoff_timeout(..)) { dhcp_send_packet(..); next_backoff(..); }` -/
def dhcpSendOnTimeout (type : DhcpPacketType) : Net Unit := do
  if backoffTimeout (← get).dhcp.backoff (← getTime) then
    dhcpSendPacket type
    let r ← random
    let now ← getTime
    modifyDhcp fun d => { d with backoff := nextBackoff d.backoff now r }

def resetDhcpBackoff : Net Unit :=
  modifyDhcp fun d => { d with backoff := backoffReset d.backoff }

def dhcpDiscoverTask : Net Unit := do
  dhcpSendOnTimeout .discover
  if (← tryReadOffer) then
    setDhcpState .requesting
    resetDhcpBackoff

def dhcpRequestingTask : Net Unit := do
  dhcpSendOnTimeout .request
  match (← tryReadAck) with
  | none => pure ()
  | some true =>
    setDhcpState .bound
    setOurIp (← get).dhcp.leasedIp
    setOurNetmask (← get).dhcp.netmask
  | some false =>
    modifyDhcp fun d => { d with aquisitionCount := d.aquisitionCount + 1 }
    setDhcpState .discover
    resetDhcpBackoff

def dhcpBoundTask : Net Unit := do
  if renewingExpired (← get).dhcp (← getTime) then
    setDhcpState .renewing
    resetDhcpBackoff

/-- The part of `DHCP_RENEWING` that runs whether or not the state has just been left. -/
def dhcpRenew : Net Unit := do
  dhcpSendOnTimeout .renew
  match (← tryReadAck) with
  | none => pure ()
  | some true => setDhcpState .bound
  | some false => setDhcpState .discover

def dhcpRenewingTask : Net Unit := do
  if rebindingExpired (← get).dhcp (← getTime) then
    setDhcpState .rebinding
  dhcpRenew

def dhcpRebindingTask : Net Unit := do
  let d := (← get).dhcp
  if getElapsed d.time (← getTime) ≥ d.leaseTime then
    setDhcpState .discover
    resetDhcpBackoff

def dhcpTask : Net Unit := do
  match (← get).dhcp.state with
  | .disabled => pure ()
  | .discover => dhcpDiscoverTask
  | .requesting => dhcpRequestingTask
  | .bound => dhcpBoundTask
  | .renewing => dhcpRenewingTask
  | .rebinding => dhcpRebindingTask
  | .error => pure ()

def dhcpRelease : Net Unit :=
  dhcpSendPacket .release

def dhcpIsDone (d : Dhcp) : Bool :=
  d.state = .bound ∨ d.state = .renewing ∨ d.state = .rebinding

def dhcpGetServerIp (d : Dhcp) : Ip := d.serverIp

end MiniIp.Source
