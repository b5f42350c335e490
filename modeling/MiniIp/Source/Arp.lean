import MiniIp.Source.Mac

/-!
# Address resolution

Source: arp.c:12-324. The lists of the source are sequences: adding a node to
one list does not take it out of another. `list_remove` names no list; the code
calls it in `free_entry` only, on an entry of `used_entries`, and there it takes
the entry out of that list.
-/

set_option autoImplicit false

namespace MiniIp.Source

def arpEntryMaxQueueSize : Int := 2
def arpEntryExpirationInterval : Time := 60000
def arpRetryInterval : Time := 1000
def arpRetryMaxCount : Nat := 3
def hardwareTypeEthernet : UInt16 := 1

inductive ArpType where
  | gratuitous | probe | announcement | request | reply
  deriving DecidableEq, Repr

def arpOperationRequest : UInt16 := 1
def arpOperationReply : UInt16 := 2

/-- `sizeof(ArpHeader)`: hardware type 0, protocol type 2, lengths 4 and 5, operation 6,
sender's MAC 8 and IP 14, target's MAC 18 and IP 24. -/
def arpHeaderSize : Int := 28

def arpInit : Net Unit :=
  modify fun s => { s with
    arp.freeEntries := (List.finRange 8).reverse
    arp.usedEntries := []
    arp.entries := fun entry => { s.arp.entries entry with packetQueue := [] } }

/-- The loop of `free_entry`: `list_remove_first` until the queue is empty. -/
def freeEntryPackets (entry : ArpEntryId) : List PacketId → Net Unit
  | [] => pure ()
  | packet :: rest => do
    modifyEntry entry fun e => { e with packetQueue := rest }
    freeNetworkPacket packet
    modifyEntry entry fun e => { e with packetCount := e.packetCount - 1 }
    freeEntryPackets entry rest

def freeEntry (entry : ArpEntryId) : Net Unit := do
  freeEntryPackets entry ((← get).arp.entries entry).packetQueue
  modify fun s => s.setEntryLists (entry :: s.arp.freeEntries) (s.arp.usedEntries.erase entry)

/-- The end of `allocate_entry`, after a node has been found. -/
def takeEntry (entry : ArpEntryId) : Net ArpEntryId := do
  modifyEntry entry fun e => { e with containValidMapping := false, retryCount := 0, packetCount := 0 }
  modify fun s => s.setEntryLists s.arp.freeEntries (s.arp.usedEntries ++ [entry])
  return entry

def allocateEntry : Net ArpEntryId := do
  match (← get).arp.freeEntries with
  | entry :: rest =>
    modify fun s => s.setEntryLists rest s.arp.usedEntries
    takeEntry entry
  | [] =>
    match (← get).arp.usedEntries with
    | [] => throw .nullPointer
    | entry :: _ =>
      emit (.arpEvicted entry)
      freeEntry entry
      -- the entry stays in free_entries
      takeEntry entry

/-- The header that `send_arp_packet` writes field by field. -/
def writeArpHeader (sendersMac targetMac : Mac) (sendersIp targetIp : Ip) (operation : UInt16)
    (header : Int) (memory : Memory) : Memory :=
  writeBe32 targetIp (header + 24) (writeBe32 sendersIp (header + 14)
    (writeBe16 operation (header + 6) (writeBe16 etherTypeIpv4 (header + 2)
      (writeBe16 hardwareTypeEthernet header (writeByte 4 (header + 5) (writeByte 6 (header + 4)
        (writeMac targetMac (header + 18) (writeMac sendersMac (header + 8) memory))))))))

def zeroMac : Mac := ⟨#v[0, 0, 0, 0, 0, 0]⟩

/-- The null `target_mac` of the callers that need none is `zeroMac`. The block of arp.c:132-134
points `target_mac` to a zero address that it declares itself. That object is dead when
arp.c:145 copies from it, so the bytes copied are whatever its place holds then. -/
def sendArpPacket (targetMac : Mac) (targetIp : Ip) (arpType : ArpType) : Net Unit := do
  let packet ← allocateNetworkPacket
  recordWindow .sendArpPacket packet arpHeaderSize
  let s ← get
  let targetMac := if arpType ≠ .reply then s.application.residue s.trace.length else targetMac
  let targetIp := if arpType = .announcement ∨ arpType = .gratuitous then s.ourIp else targetIp
  let sendersIp := if arpType = .probe then 0 else s.ourIp
  let operation :=
    if arpType = .gratuitous ∨ arpType = .reply then arpOperationReply else arpOperationRequest
  modifyPacket packet fun p => { p with
    length := arpHeaderSize
    data := writeArpHeader s.ourMac targetMac sendersIp targetIp operation p.index p.data }
  if arpType = .reply then
    macSend packet targetMac etherTypeArp
  else
    macBroadcast packet etherTypeArp

def findArpEntry (ip : Ip) : Net (Option ArpEntryId) := do
  let s ← get
  return s.arp.usedEntries.find? fun entry => (s.arp.entries entry).ip = ip

/-- `list_add_last` on the queue of an entry, with its counter. -/
def appendToArpEntryQueue (packet : PacketId) (entry : ArpEntryId) : Net Unit := do
  modifyEntry entry fun e => { e with
    packetQueue := e.packetQueue ++ [packet], packetCount := e.packetCount + 1 }
  recordWindow .arpQueue packet 0

def addToArpEntryQueue (packet : PacketId) (entry : ArpEntryId) : Net Unit := do
  if ((← get).arp.entries entry).packetCount = arpEntryMaxQueueSize then
    match ((← get).arp.entries entry).packetQueue with
    | [] => throw .nullPointer
    | packetToDelete :: rest =>
      modifyEntry entry fun e => { e with packetQueue := rest }
      freeNetworkPacket packetToDelete
      modifyEntry entry fun e => { e with packetCount := e.packetCount - 1 }
      appendToArpEntryQueue packet entry
  else
    appendToArpEntryQueue packet entry

def arpSend (packet : PacketId) (ip : Ip) : Net Unit := do
  emit (.arpSend packet ip)
  match (← findArpEntry ip) with
  | some entry =>
    let e := (← get).arp.entries entry
    if e.containValidMapping then
      macSend packet e.mac etherTypeIpv4
    else
      addToArpEntryQueue packet entry
  | none =>
    let entry ← allocateEntry
    let now ← getTime
    modifyEntry entry fun e => { e with ip := ip, containValidMapping := false, time := now }
    addToArpEntryQueue packet entry
    sendArpPacket zeroMac ip .request

def validateArpHeader (memory : Memory) (header : Int) : Bool :=
  if readBe16 memory header ≠ hardwareTypeEthernet then false
  else if readBe16 memory (header + 2) ≠ etherTypeIpv4 then false
  else if memory (header + 4) ≠ 6 ∨ memory (header + 5) ≠ 4 then false
  else true

/-- The loop of `send_packets_on_entry`; `mac_send` adds nothing to the queue. -/
def sendPacketsOnEntry (entry : ArpEntryId) : List PacketId → Net Unit
  | [] => pure ()
  | packet :: rest => do
    modifyEntry entry fun e => { e with packetQueue := rest }
    macSend packet ((← get).arp.entries entry).mac etherTypeIpv4
    sendPacketsOnEntry entry rest

def updateArpMapping (ip : Ip) (mac : Mac) (updateOnlyIfNotValid : Bool) : Net Unit := do
  match (← findArpEntry ip) with
  | none => pure ()
  | some entry =>
    if updateOnlyIfNotValid ∧ ((← get).arp.entries entry).containValidMapping = true then
      pure ()
    else
      let now ← getTime
      emit (.arpMapped ip mac)
      modifyEntry entry fun e => { e with mac := mac, containValidMapping := true, time := now }
      sendPacketsOnEntry entry ((← get).arp.entries entry).packetQueue

/-- The reply passes `header->senders_ip` on as it lies in memory. -/
def handleArp (packet : PacketId) : Net Unit := do
  let p ← getPacket packet
  if sizeT p.length < arpHeaderSize then
    freeNetworkPacket packet
  else
    recordWindow .handleArp packet arpHeaderSize
    if validateArpHeader p.data p.index = false then
      freeNetworkPacket packet
    else
      let ourIp := (← get).ourIp
      let operation := readBe16 p.data (p.index + 6)
      let sendersIp := readBe32 p.data (p.index + 14)
      let targetIp := readBe32 p.data (p.index + 24)
      let sendersMac := readMac p.data (p.index + 8)
      if operation = arpOperationReply then
        if sendersIp ≠ targetIp ∧ targetIp = ourIp then
          updateArpMapping sendersIp sendersMac true
      else if operation = arpOperationRequest then
        if sendersIp ≠ 0 ∧ sendersIp ≠ targetIp ∧ targetIp = ourIp then
          sendArpPacket sendersMac (readRaw32 p.data (p.index + 14)) .reply
      freeNetworkPacket packet

/-- The body of the loop in `arp_task`. -/
def arpEntryTask (entry : ArpEntryId) : Net Unit := do
  let e := (← get).arp.entries entry
  let now ← getTime
  if e.containValidMapping then
    if getElapsed e.time now > arpEntryExpirationInterval then
      freeEntry entry
  else if getElapsed e.time now > arpRetryInterval then
    if e.retryCount < arpRetryMaxCount then
      sendArpPacket zeroMac e.ip .request
      modifyEntry entry fun e => { e with retryCount := e.retryCount + 1, time := now }
    else
      freeEntry entry

def arpEntriesTask : List ArpEntryId → Net Unit
  | [] => pure ()
  | entry :: rest => do
    arpEntryTask entry
    arpEntriesTask rest

/-- `list_iterate_safe` over the entries in use when the task starts: the body removes no
entry but the current one. -/
def arpTask : Net Unit := do
  arpEntriesTask (← get).arp.usedEntries

end MiniIp.Source
