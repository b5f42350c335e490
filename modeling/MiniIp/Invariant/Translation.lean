import MiniIp.Invariant.BackoffBounds
import MiniIp.Invariant.HandoverRun
import MiniIp.Library.Simulation

/-!
# The clock translated

`later delta` moves the clock and every time that is stored. No function looks at a time but by
`get_elapsed`, so each does in the translated state what it does in the state itself.
-/

set_option autoImplicit false

namespace MiniIp.Invariant

open MiniIp.Source MiniIp.Library.Wp

def laterBackoff (delta : Time) (backoff : Backoff) : Backoff :=
  { backoff with time := backoff.time + delta }

def laterConnection (delta : Time) (connection : TftpConnection) : TftpConnection :=
  { connection with backoff := laterBackoff delta connection.backoff }

def laterDhcp (delta : Time) (d : Dhcp) : Dhcp :=
  { d with time := d.time + delta, backoff := laterBackoff delta d.backoff }

def laterEntry (delta : Time) (e : ArpEntry) : ArpEntry := { e with time := e.time + delta }

/-- The state in which every stored time, and the clock, has moved by the same amount. The entropy has not. -/
def later (delta : Time) (s : Stack) : Stack := { s with
  time := s.time + delta
  arp.entries := fun e => laterEntry delta (s.arp.entries e)
  dhcp := laterDhcp delta s.dhcp
  application := ⟨laterConnection delta s.application.connection, s.application.received, s.application.residue⟩ }

/-- The computation does the same at any other time. -/
abbrev Translates (delta : Time) {α : Type} (x : Net α) : Prop := Follows (later delta) id x x

/-- Only differences of times are looked at, modulo 2^32. -/
theorem getElapsed_translated (start now delta : Time) : getElapsed (start + delta) (now + delta) = getElapsed start now := by
  unfold getElapsed
  grind

variable {delta : Time} {p : PacketId}

theorem getPacket_translates : Translates delta (getPacket p) := fun _ => rfl

theorem emit_translates (event : Event) : Translates delta (emit event) := fun _ => rfl

theorem modifyPacket_translates (f : NetworkPacket → NetworkPacket) :
    Translates delta (modifyPacket p f) := fun _ => rfl

theorem recordWindow_translates (site : Site) (size : Int) :
    Translates delta (recordWindow site p size) := fun _ => rfl

theorem freeNetworkPacket_translates : Translates delta (freeNetworkPacket p) := fun _ => rfl

theorem getTime_follows : Follows (later delta) (· + delta) getTime getTime := fun _ => rfl

theorem random_translates : Translates delta random := fun _ => rfl

theorem allocateNetworkPacket_translates : Translates delta allocateNetworkPacket := by
  unfold allocateNetworkPacket
  apply Follows.read
  intro s
  dsimp only [later]
  cases s.freeNetworkPackets with
  | nil => exact .throw _
  | cons packet rest => exact .bind (.modify fun _ => rfl) fun _ => .bind (modifyPacket_translates _) fun _ => .pure _

theorem gmacSend_translates : Translates delta (gmacSend p) := by
  unfold gmacSend
  refine .bind (recordWindow_translates _ _) fun _ => .bind getPacket_translates fun k => ?_
  refine .bind (emit_translates _) fun _ => .read fun s => .read fun s' => ?_
  refine .ite (.throw _) (.read fun t => .ite freeNetworkPacket_translates (.read fun u => ?_))
  dsimp only [later]
  cases u.gmac.txPackets s.gmac.txIndex with
  | none => exact .throw _
  | some old =>
    refine .bind freeNetworkPacket_translates fun _ => .bind (.modify fun _ => rfl) fun _ => ?_
    exact .bind getPacket_translates fun _ => .bind (.modify fun _ => rfl) fun _ => .modify fun _ => rfl

theorem macSend_translates (mac : Mac) (etherType : UInt16) : Translates delta (macSend p mac etherType) :=
  .bind (modifyPacket_translates _) fun _ => .bind (recordWindow_translates _ _) fun _ => .read fun _ =>
    .bind (modifyPacket_translates _) fun _ => .bind (emit_translates _) fun _ => gmacSend_translates

/-- An assignment to an entry that does not touch its time. -/
theorem modifyEntry_translates {entry : ArpEntryId} {f g : ArpEntry → ArpEntry}
    (h : ∀ e, g (laterEntry delta e) = laterEntry delta (f e)) :
    Follows (later delta) id (modifyEntry entry f) (modifyEntry entry g) := by
  apply Follows.modify
  intro s
  have hentries : Function.update (later delta s).arp.entries entry (g (laterEntry delta (s.arp.entries entry))) =
      (later delta (s.setEntry entry (f (s.arp.entries entry)))).arp.entries := by
    rw [h]
    exact (Function.comp_update (laterEntry delta) _ _ _).symm
  exact congrArg (fun entries => { later delta s with arp.entries := entries }) hentries

theorem freeEntryPackets_translates (entry : ArpEntryId) (packets : List PacketId) :
    Translates delta (freeEntryPackets entry packets) := by
  induction packets with
  | nil => exact .pure _
  | cons packet rest ih =>
    exact .bind (modifyEntry_translates fun _ => rfl) fun _ => .bind freeNetworkPacket_translates fun _ =>
      .bind (modifyEntry_translates fun _ => rfl) fun _ => ih

theorem freeEntry_translates (entry : ArpEntryId) : Translates delta (freeEntry entry) :=
  .read fun _ => .bind (freeEntryPackets_translates _ _) fun _ => .modify fun _ => rfl

theorem takeEntry_translates (entry : ArpEntryId) : Translates delta (takeEntry entry) :=
  .bind (modifyEntry_translates fun _ => rfl) fun _ => .bind (.modify fun _ => rfl) fun _ => .pure _

theorem allocateEntry_translates : Translates delta allocateEntry := by
  unfold allocateEntry
  apply Follows.read
  intro s
  dsimp only [later]
  cases s.arp.freeEntries with
  | cons entry rest => exact .bind (.modify fun _ => rfl) fun _ => takeEntry_translates _
  | nil =>
    apply Follows.read
    intro t
    dsimp only [later]
    cases t.arp.usedEntries with
    | nil => exact .throw _
    | cons entry rest =>
      exact .bind (emit_translates _) fun _ => .bind (freeEntry_translates _) fun _ => takeEntry_translates _

theorem sendArpPacket_translates (targetMac : Mac) (targetIp : Ip) (arpType : ArpType) :
    Translates delta (sendArpPacket targetMac targetIp arpType) :=
  .bind allocateNetworkPacket_translates fun _ => .bind (recordWindow_translates _ _) fun _ => .read fun _ =>
    .bind (modifyPacket_translates _) fun _ => .ite (macSend_translates _ _) (macSend_translates _ _)

theorem findArpEntry_translates (ip : Ip) : Translates delta (findArpEntry ip) := fun _ => rfl

theorem appendToArpEntryQueue_translates (entry : ArpEntryId) : Translates delta (appendToArpEntryQueue p entry) :=
  .bind (modifyEntry_translates fun _ => rfl) fun _ => recordWindow_translates _ _

theorem addToArpEntryQueue_translates (entry : ArpEntryId) : Translates delta (addToArpEntryQueue p entry) := by
  unfold addToArpEntryQueue
  refine .read fun s => .ite (.read fun t => ?_) (appendToArpEntryQueue_translates _)
  dsimp only [later, laterEntry]
  cases (t.arp.entries entry).packetQueue with
  | nil => exact .throw _
  | cons packetToDelete rest =>
    exact .bind (modifyEntry_translates fun _ => rfl) fun _ => .bind freeNetworkPacket_translates fun _ =>
      .bind (modifyEntry_translates fun _ => rfl) fun _ => appendToArpEntryQueue_translates _

theorem arpSend_translates (ip : Ip) : Translates delta (arpSend p ip) := by
  unfold arpSend
  refine .bind (emit_translates _) fun _ => .bind (findArpEntry_translates ip) fun found => ?_
  cases found with
  | some entry => exact .read fun _ => .ite (macSend_translates _ _) (addToArpEntryQueue_translates _)
  | none =>
    refine .bind allocateEntry_translates fun entry => .bind getTime_follows fun now => ?_
    exact .bind (modifyEntry_translates fun _ => rfl) fun _ => .bind (addToArpEntryQueue_translates _) fun _ =>
      sendArpPacket_translates _ _ _

theorem sendPacketsOnEntry_translates (entry : ArpEntryId) (packets : List PacketId) :
    Translates delta (sendPacketsOnEntry entry packets) := by
  induction packets with
  | nil => exact .pure _
  | cons packet rest ih =>
    exact .bind (modifyEntry_translates fun _ => rfl) fun _ => .read fun _ => .bind (macSend_translates _ _) fun _ => ih

theorem updateArpMapping_translates (ip : Ip) (mac : Mac) (updateOnlyIfNotValid : Bool) :
    Translates delta (updateArpMapping ip mac updateOnlyIfNotValid) := by
  refine .bind (findArpEntry_translates ip) fun found => ?_
  cases found with
  | none => exact .pure _
  | some entry =>
    refine .read fun _ => .ite (.pure _) (.bind getTime_follows fun now => .bind (emit_translates _) fun _ => ?_)
    exact .bind (modifyEntry_translates fun _ => rfl) fun _ => .read fun _ => sendPacketsOnEntry_translates _ _

theorem handleArp_translates : Translates delta (handleArp p) := by
  refine .bind getPacket_translates fun k => .ite freeNetworkPacket_translates ?_
  refine .bind (recordWindow_translates _ _) fun _ => .ite freeNetworkPacket_translates (.read fun s => ?_)
  refine .ite (.ite ?_ ?_) (.ite (.ite ?_ ?_) ?_)
  · exact .bind (updateArpMapping_translates _ _ _) fun _ => freeNetworkPacket_translates
  · exact freeNetworkPacket_translates
  · exact .bind (sendArpPacket_translates _ _ _) fun _ => freeNetworkPacket_translates
  · exact freeNetworkPacket_translates
  · exact freeNetworkPacket_translates

theorem arpEntryTask_translates (entry : ArpEntryId) : Translates delta (arpEntryTask entry) := by
  refine .read fun s => .bind getTime_follows fun now => ?_
  have helapsed : getElapsed ((later delta s).arp.entries entry).time (now + delta) =
      getElapsed (s.arp.entries entry).time now := getElapsed_translated _ _ _
  simp only [helapsed]
  refine .ite (.ite (freeEntry_translates _) (.pure _)) (.ite (.ite ?_ (freeEntry_translates _)) (.pure _))
  exact .bind (sendArpPacket_translates _ _ _) fun _ => modifyEntry_translates fun _ => rfl

theorem arpEntriesTask_translates (entries : List ArpEntryId) : Translates delta (arpEntriesTask entries) := by
  induction entries with
  | nil => exact .pure _
  | cons entry rest ih => exact .bind (arpEntryTask_translates entry) fun _ => ih

/-- The table is polled by the age of its entries. -/
theorem arpTask_translates : Translates delta arpTask := .read fun _ => arpEntriesTask_translates _

theorem ipSend_translates (ip : Ip) (protocol : UInt8) : Translates delta (ipSend p ip protocol) :=
  .bind (modifyPacket_translates _) fun _ => .bind (recordWindow_translates _ _) fun _ => .read fun _ =>
    .bind (modifyPacket_translates _) fun _ => .ite (macSend_translates _ _) (arpSend_translates ip)

theorem udpSendZeroCopy_translates (sourcePort destPort : Port) (ip : Ip) :
    Translates delta (udpSendZeroCopy p sourcePort destPort ip) :=
  .bind getPacket_translates fun _ => .bind (emit_translates _) fun _ => .bind (modifyPacket_translates _) fun _ =>
    .bind (recordWindow_translates _ _) fun _ => .read fun _ => .bind (modifyPacket_translates _) fun _ =>
      .bind (modifyPacket_translates _) fun _ => ipSend_translates _ _

/-- A fresh packet, filled and passed on. -/
theorem filled_translates {f : PacketId → NetworkPacket → NetworkPacket} {send : PacketId → Net Unit}
    (h : ∀ packet, Translates delta (send packet)) :
    Translates delta (allocateNetworkPacket >>= fun packet => modifyPacket packet (f packet) >>= fun _ => send packet) :=
  .bind allocateNetworkPacket_translates fun packet => .bind (modifyPacket_translates _) fun _ => h packet

theorem udpSend_translates (data : Nat → UInt8) (size : Int) (sourcePort destPort : Port) (ip : Ip) :
    Translates delta (udpSend data size sourcePort destPort ip) :=
  filled_translates fun _ => udpSendZeroCopy_translates _ _ _

theorem sendToIp_translates (bytes : List UInt8) (ip : Ip) : Translates delta (sendToIp bytes ip) :=
  filled_translates fun _ => arpSend_translates _

theorem modifyConnection_translates (connection : UdpConnectionId) (f : UdpConnection → UdpConnection) :
    Translates delta (modifyConnection connection f) := fun _ => rfl

theorem udpListen_translates (port : Port) (maxPacketCount : Int) : Translates delta (udpListen port maxPacketCount) := by
  refine .read fun s => ?_
  dsimp only [later]
  cases s.udp.freeConnections with
  | nil => exact .throw _
  | cons connection rest =>
    exact .bind (.modify fun _ => rfl) fun _ => .bind (modifyConnection_translates _ _) fun _ => .modify fun _ => rfl

theorem udpReceiveZeroCopy_translates (port : Port) : Translates delta (udpReceiveZeroCopy port) := by
  refine .read fun s => ?_
  dsimp only [later]
  cases findConnection s.udp port with
  | none => exact .pure _
  | some connection =>
    refine .read fun t => .ite (.pure _) ?_
    dsimp only [later]
    cases (t.udp.connections connection).packetQueue with
    | nil => exact .throw _
    | cons packet rest =>
      exact .bind (modifyConnection_translates _ _) fun _ => .bind getPacket_translates fun _ =>
        .bind (emit_translates _) fun _ => .pure _

theorem udpReceive_translates (size : Int) (port : Port) : Translates delta (udpReceive size port) := by
  refine .bind (udpReceiveZeroCopy_translates port) fun taken => ?_
  cases taken with
  | none => exact .pure _
  | some packet => exact .bind getPacket_translates fun _ => .bind freeNetworkPacket_translates fun _ => .pure _

theorem udpLimitQueue_translates (connection : UdpConnectionId) : Translates delta (udpLimitQueue connection) := by
  refine .read fun s => .ite ?_ (.pure _)
  dsimp only [later]
  cases (s.udp.connections connection).packetQueue with
  | nil => exact .throw _
  | cons freeThis rest =>
    exact .bind (modifyConnection_translates _ _) fun _ => .bind freeNetworkPacket_translates fun _ =>
      modifyConnection_translates _ _

theorem udpQueuePacket_translates (connection : UdpConnectionId) : Translates delta (udpQueuePacket connection p) :=
  .bind (modifyConnection_translates _ _) fun _ => .bind (recordWindow_translates _ _) fun _ => .read fun _ =>
    .bind (emit_translates _) fun _ => udpLimitQueue_translates _

theorem handleUdp_translates : Translates delta (handleUdp p) := by
  refine .bind getPacket_translates fun k => .ite freeNetworkPacket_translates ?_
  refine .bind (recordWindow_translates _ _) fun _ => .bind (modifyPacket_translates _) fun _ => .read fun s => ?_
  dsimp only [later, id_eq]
  cases findConnection s.udp (readBe16 k.data (k.index + 2)) with
  | none => exact freeNetworkPacket_translates
  | some connection => exact udpQueuePacket_translates connection

theorem handleIcmp_translates : Translates delta (handleIcmp p) := by
  refine .bind getPacket_translates fun k => .ite freeNetworkPacket_translates ?_
  refine .bind (recordWindow_translates _ _) fun _ => .ite ?_ freeNetworkPacket_translates
  exact .bind (modifyPacket_translates _) fun _ => ipSend_translates _ _

theorem handleIp_translates : Translates delta (handleIp p) := by
  refine .bind getPacket_translates fun k => .ite freeNetworkPacket_translates ?_
  refine .bind (recordWindow_translates _ _) fun _ => .bind (modifyPacket_translates _) fun _ => ?_
  refine .ite freeNetworkPacket_translates (.bind (modifyPacket_translates _) fun _ => .read fun s => ?_)
  exact .ite freeNetworkPacket_translates (.ite handleUdp_translates (.ite handleIcmp_translates
    freeNetworkPacket_translates))

/-- A received frame is stamped with the clock, and compared with nothing. -/
theorem handleMac_translates : Translates delta (handleMac p) := by
  refine .bind getPacket_translates fun k => .ite freeNetworkPacket_translates ?_
  refine .bind (recordWindow_translates _ _) fun _ => .bind (modifyPacket_translates _) fun _ => ?_
  exact .ite handleArp_translates (.ite handleIp_translates freeNetworkPacket_translates)

theorem gmacReceive_translates : Translates delta gmacReceive := by
  refine .read fun s => .read fun t => .ite (.pure _) (.ite ?_ (.read fun u => ?_))
  · exact .bind (.modify fun _ => rfl) fun _ => .pure _
  · dsimp only [later]
    cases u.gmac.rxPackets s.gmac.rxIndex with
    | none => exact .throw _
    | some packet =>
      refine .bind (modifyPacket_translates _) fun _ => .bind allocateNetworkPacket_translates fun _ => ?_
      exact .bind (.modify fun _ => rfl) fun _ => .bind (.modify fun _ => rfl) fun _ =>
        .bind (.modify fun _ => rfl) fun _ => .pure _

theorem receivePacket_translates : Translates delta receivePacket := by
  refine .bind gmacReceive_translates fun received => ?_
  cases received with
  | none => exact .pure _
  | some packet => exact .bind handleMac_translates fun _ => .pure _

theorem gmacReceiveDone_translates (slot : Fin 32) (status : RxStatus) (bytes : Memory) :
    Translates delta (gmacReceiveDone slot status bytes) := by
  refine .read fun s => .ite (.read fun t => ?_) (.pure _)
  dsimp only [later]
  cases t.gmac.rxPackets slot with
  | none => exact .pure _
  | some packet => exact .bind (modifyPacket_translates _) fun _ => .modify fun _ => rfl

theorem backoffTimeout_translated (backoff : Backoff) (now : Time) :
    backoffTimeout (laterBackoff delta backoff) (now + delta) = backoffTimeout backoff now := by
  unfold backoffTimeout laterBackoff
  rw [getElapsed_translated]

theorem nextBackoff_translated (backoff : Backoff) (now : Time) (r : UInt32) :
    nextBackoff (laterBackoff delta backoff) (now + delta) r = laterBackoff delta (nextBackoff backoff now r) := by
  rw [nextBackoff_eq, nextBackoff_eq]
  rfl

theorem modifyDhcp_translates {f g : Dhcp → Dhcp} (h : ∀ c, g (laterDhcp delta c) = laterDhcp delta (f c)) :
    Follows (later delta) id (modifyDhcp f) (modifyDhcp g) := by
  apply Follows.modify
  intro s
  exact congrArg (fun c => { later delta s with dhcp := c }) (h s.dhcp)

theorem setDhcpState_translates (state : DhcpState) : Translates delta (setDhcpState state) :=
  .bind (modifyDhcp_translates fun _ => rfl) fun _ => emit_translates _

theorem resetDhcpBackoff_translates : Translates delta resetDhcpBackoff := modifyDhcp_translates fun _ => rfl

theorem dhcpStart_translates : Translates delta dhcpStart := by
  refine .bind (setDhcpState_translates _) fun _ => .bind random_translates fun _ => .bind getTime_follows fun now => ?_
  exact .bind (modifyDhcp_translates fun _ => rfl) fun _ => udpListen_translates _ _

theorem writeDhcpHeader_translated (d : Dhcp) (ourMac : Mac) (now : Time) (header : Int) (memory : Memory) :
    writeDhcpHeader (laterDhcp delta d) ourMac (now + delta) header memory =
      writeDhcpHeader d ourMac now header memory := by
  unfold writeDhcpHeader laterDhcp
  rw [getElapsed_translated]

theorem dhcpPacketOptions_translated (d : Dhcp) (type : DhcpPacketType) :
    dhcpPacketOptions (laterDhcp delta d) type = dhcpPacketOptions d type := by
  cases type <;> rfl

theorem writeDhcpKind_translated (d : Dhcp) (header : Int) (memory : Memory) (type : DhcpPacketType) :
    writeDhcpKind (laterDhcp delta d) header memory type = writeDhcpKind d header memory type := by
  cases type <;> rfl

/-- The seconds in the header are a difference too. -/
theorem dhcpSendPacket_translates (type : DhcpPacketType) : Translates delta (dhcpSendPacket type) := by
  refine .bind allocateNetworkPacket_translates fun packet => .read fun s => ?_
  have hheader : writeDhcpHeader (laterDhcp delta s.dhcp) s.ourMac (s.time + delta) =
      writeDhcpHeader s.dhcp s.ourMac s.time := by
    funext header memory
    exact writeDhcpHeader_translated s.dhcp s.ourMac s.time header memory
  dsimp only [later]
  simp only [hheader, dhcpPacketOptions_translated, writeDhcpKind_translated]
  exact .bind (modifyPacket_translates _) fun _ => .bind (emit_translates _) fun _ => udpSendZeroCopy_translates _ _ _

theorem dhcpSendOnTimeout_translates (type : DhcpPacketType) : Translates delta (dhcpSendOnTimeout type) := by
  refine .read fun s => .bind getTime_follows fun now => ?_
  have htimeout : backoffTimeout (later delta s).dhcp.backoff (now + delta) = backoffTimeout s.dhcp.backoff now :=
    backoffTimeout_translated _ _
  simp only [htimeout]
  refine .ite ?_ (.pure _)
  refine .bind (dhcpSendPacket_translates _) fun _ => .bind random_translates fun r => .bind getTime_follows fun t => ?_
  apply modifyDhcp_translates
  intro c
  exact congrArg (fun b => { laterDhcp delta c with backoff := b }) (nextBackoff_translated c.backoff t r)

theorem dhcpRead_translates : Translates delta dhcpRead := by
  refine .bind (udpReceiveZeroCopy_translates _) fun taken => ?_
  cases taken with
  | none => exact .pure _
  | some packet =>
    exact .bind getPacket_translates fun _ => .read fun _ => .bind (.modify fun _ => rfl) fun _ =>
      .bind freeNetworkPacket_translates fun _ => .pure _

theorem tryReadOffer_translates : Translates delta tryReadOffer :=
  .bind dhcpRead_translates fun _ => .ite (.pure _) (.read fun _ => .ite (.pure _)
    (.bind (modifyDhcp_translates fun _ => rfl) fun _ => .bind (emit_translates _) fun _ => .pure _))

theorem tryReadAck_translates : Translates delta tryReadAck := by
  refine .bind dhcpRead_translates fun _ => .ite (.pure _) (.read fun _ => .read fun _ => .ite (.pure _) ?_)
  refine .ite (.pure _) (.ite (.pure _) (.ite (.pure _) (.bind getTime_follows fun now => ?_)))
  exact .bind (modifyDhcp_translates fun _ => rfl) fun _ => .bind (emit_translates _) fun _ => .pure _

theorem dhcpDiscoverTask_translates : Translates delta dhcpDiscoverTask :=
  .bind (dhcpSendOnTimeout_translates _) fun _ => .bind tryReadOffer_translates fun _ =>
    .ite (.bind (setDhcpState_translates _) fun _ => resetDhcpBackoff_translates) (.pure _)

theorem dhcpRequestingTask_translates : Translates delta dhcpRequestingTask := by
  refine .bind (dhcpSendOnTimeout_translates _) fun _ => .bind tryReadAck_translates fun answer => ?_
  cases answer with
  | none => exact .pure _
  | some isAck =>
    cases isAck with
    | true =>
      exact .bind (setDhcpState_translates _) fun _ => .read fun _ => .bind (.modify fun _ => rfl) fun _ =>
        .read fun _ => .modify fun _ => rfl
    | false =>
      exact .bind (modifyDhcp_translates fun _ => rfl) fun _ => .bind (setDhcpState_translates _) fun _ =>
        resetDhcpBackoff_translates

theorem dhcpBoundTask_translates : Translates delta dhcpBoundTask := by
  refine .read fun s => .bind getTime_follows fun now => ?_
  have hexpired : renewingExpired (later delta s).dhcp (now + delta) = renewingExpired s.dhcp now :=
    congrArg (fun t => decide (t > s.dhcp.leaseTime / 2)) (getElapsed_translated _ _ _)
  simp only [hexpired]
  exact .ite (.bind (setDhcpState_translates _) fun _ => resetDhcpBackoff_translates) (.pure _)

theorem dhcpRenew_translates : Translates delta dhcpRenew := by
  refine .bind (dhcpSendOnTimeout_translates _) fun _ => .bind tryReadAck_translates fun answer => ?_
  cases answer with
  | none => exact .pure _
  | some isAck =>
    cases isAck with
    | true => exact setDhcpState_translates _
    | false => exact setDhcpState_translates _

theorem dhcpRenewingTask_translates : Translates delta dhcpRenewingTask := by
  refine .read fun s => .bind getTime_follows fun now => ?_
  have hexpired : rebindingExpired (later delta s).dhcp (now + delta) = rebindingExpired s.dhcp now :=
    congrArg (fun t => decide (t > 3 * s.dhcp.leaseTime / 4)) (getElapsed_translated _ _ _)
  simp only [hexpired]
  exact .ite (.bind (setDhcpState_translates _) fun _ => dhcpRenew_translates) dhcpRenew_translates

theorem dhcpRebindingTask_translates : Translates delta dhcpRebindingTask := by
  refine .read fun s => .bind getTime_follows fun now => ?_
  have helapsed : getElapsed (later delta s).dhcp.time (now + delta) = getElapsed s.dhcp.time now :=
    getElapsed_translated _ _ _
  simp only [helapsed]
  exact .ite (.bind (setDhcpState_translates _) fun _ => resetDhcpBackoff_translates) (.pure _)

/-- One call of the client, state by state. -/
theorem dhcpTask_translates : Translates delta dhcpTask := by
  refine .read fun s => ?_
  dsimp only [later, laterDhcp]
  cases s.dhcp.state with
  | disabled => exact .pure _
  | discover => exact dhcpDiscoverTask_translates
  | requesting => exact dhcpRequestingTask_translates
  | bound => exact dhcpBoundTask_translates
  | renewing => exact dhcpRenewingTask_translates
  | rebinding => exact dhcpRebindingTask_translates
  | error => exact .pure _

theorem sendTftpPacket_translates (connection : TftpConnection) (destPort : Port) (bytes : List UInt8) :
    Follows (later delta) id (sendTftpPacket connection destPort bytes)
      (sendTftpPacket (laterConnection delta connection) destPort bytes) :=
  filled_translates fun _ => udpSendZeroCopy_translates _ _ _

theorem tftpSendOnTimeout_translates (connection : TftpConnection) {send send' : Net Unit}
    (h : Follows (later delta) id send send') :
    Follows (later delta) (laterConnection delta) (tftpSendOnTimeout connection send)
      (tftpSendOnTimeout (laterConnection delta connection) send') := by
  refine .bind getTime_follows fun now => ?_
  have htimeout : backoffTimeout (laterConnection delta connection).backoff (now + delta) =
      backoffTimeout connection.backoff now := backoffTimeout_translated _ _
  simp only [htimeout]
  refine .ite (.bind h fun _ => .bind random_translates fun r => .bind getTime_follows fun t => ?_) (.pure _)
  have hnext : { laterConnection delta connection with
      backoff := nextBackoff (laterBackoff delta connection.backoff) (t + delta) r } =
        laterConnection delta { connection with backoff := nextBackoff connection.backoff t r } := by
    rw [nextBackoff_translated]
    rfl
  exact hnext ▸ .pure _

/-- What a value that contains the connection is at the later time. -/
abbrev laterResult (delta : Time) {α : Type} : α × TftpConnection → α × TftpConnection :=
  Prod.map id (laterConnection delta)

theorem tryReadOack_translates (connection : TftpConnection) :
    Follows (later delta) (laterResult delta) (tryReadOack connection) (tryReadOack (laterConnection delta connection)) := by
  refine .bind (udpReceiveZeroCopy_translates _) fun taken => ?_
  cases taken with
  | none => exact .pure _
  | some packet =>
    refine .bind getPacket_translates fun k => .ite (.pure _) (.bind freeNetworkPacket_translates fun _ => ?_)
    dsimp only [id_eq]
    cases oackStatus k with
    | ok => exact .pure _
    | error => exact .pure _
    | retry => exact .pure _

theorem tryReadData_translates (connection : TftpConnection) (size : Int) :
    Follows (later delta) (laterResult delta) (tryReadData connection size)
      (tryReadData (laterConnection delta connection) size) := by
  refine .bind (udpReceiveZeroCopy_translates _) fun taken => ?_
  cases taken with
  | none => exact .pure _
  | some packet =>
    refine .bind getPacket_translates fun k => .ite ?_ (.ite ?_ (.ite ?_ ?_))
    · exact .bind (sendTftpPacket_translates _ _ _) fun _ => .bind freeNetworkPacket_translates fun _ => .pure _
    · exact .bind (sendTftpPacket_translates _ _ _) fun _ => .bind freeNetworkPacket_translates fun _ => .pure _
    · exact .bind freeNetworkPacket_translates fun _ => .pure _
    · exact .bind freeNetworkPacket_translates fun _ => .pure _

theorem handleOack_translated (result : TftpStatus × TftpConnection) :
    handleOack (laterResult delta result) = laterConnection delta (handleOack result) := by
  obtain ⟨status, connection⟩ := result
  cases status with
  | ok => rfl
  | error => rfl
  | retry => rfl

theorem tftpReadRequestState_translates (connection : TftpConnection) :
    Follows (later delta) (laterConnection delta) (tftpReadRequestState connection)
      (tftpReadRequestState (laterConnection delta connection)) := by
  refine .bind (tftpSendOnTimeout_translates _ (sendTftpPacket_translates _ _ _)) fun _ => ?_
  refine .bind (tryReadOack_translates _) fun result => ?_
  rw [handleOack_translated]
  exact .pure _

theorem tftpReadReadState_translates (connection : TftpConnection) (size : Int) :
    Follows (later delta) (laterResult delta) (tftpReadReadState connection size)
      (tftpReadReadState (laterConnection delta connection) size) := by
  refine .bind (tftpSendOnTimeout_translates _ (sendTftpPacket_translates _ _ _)) fun _ => ?_
  refine .bind (tryReadData_translates _ _) fun result => .ite (.ite ?_ (.pure _)) (.pure _)
  exact .bind (sendTftpPacket_translates (resetTftpBackoff result.2) _ _) fun _ => .pure _

/-- One poll of a download. -/
theorem tftpRead_translates (connection : TftpConnection) (size : Int) :
    Follows (later delta) (laterResult delta) (tftpRead connection size)
      (tftpRead (laterConnection delta connection) size) := by
  have hstate : (laterConnection delta connection).state = connection.state := rfl
  unfold tftpRead
  rw [hstate]
  generalize connection.state = state
  cases state with
  | request => exact .bind (tftpReadRequestState_translates connection) fun _ => .pure _
  | read => exact tftpReadReadState_translates connection size
  | done => exact .pure _
  | error => exact .pure _

/-- The operation at the later time. -/
def Op.later (delta : Time) : Op → Op
  | .tick now => .tick (now + delta)
  | op => op

theorem setApplication_translates {f g : Stack → Application}
    (h : ∀ s, g (Invariant.later delta s) =
      ⟨laterConnection delta (f s).connection, (f s).received, (f s).residue⟩) :
    Follows (Invariant.later delta) id (modify fun s => { s with application := f s } : Net Unit)
      (modify fun s => { s with application := g s }) := by
  apply Follows.modify
  intro s
  exact congrArg (fun a => { Invariant.later delta s with application := a }) (h s)

/-- Every operation, where `tick` is moved with the clock. -/
theorem exec_translates (op : Op) : Follows (later delta) id op.exec (Op.later delta op).exec := by
  cases op with
  | receiveDone slot status bytes => exact gmacReceiveDone_translates slot status bytes
  | transmitDone slot => exact .modify fun _ => rfl
  | transmitStatus tsr => exact .modify fun _ => rfl
  | tick now => exact .modify fun _ => rfl
  | receive => exact .bind receivePacket_translates fun _ => .pure _
  | arpTask => exact arpTask_translates
  | sendToIp bytes ip => exact sendToIp_translates bytes ip
  | udpListen port maxPacketCount => exact udpListen_translates port maxPacketCount
  | udpSend data size sourcePort destPort ip => exact udpSend_translates data size sourcePort destPort ip
  | udpReceive size port => exact .bind (udpReceive_translates size port) fun _ => .pure _
  | dhcpStart => exact dhcpStart_translates
  | dhcpTask => exact dhcpTask_translates
  | dhcpRelease => exact dhcpSendPacket_translates .release
  | downloadFile filename serverIp =>
    refine .read fun s => .bind (v := laterConnection delta) (.bind (udpListen_translates _ _) fun _ => .pure _) fun _ => ?_
    exact .modify fun _ => rfl
  | readFile size =>
    refine .read fun s => .bind (tftpRead_translates _ _) fun result => ?_
    exact setApplication_translates fun _ => rfl
  | abortDownload errorMessage => exact .read fun s => sendTftpPacket_translates _ _ _
  | setOurMac mac => exact .modify fun _ => rfl
  | setOurIp ip => exact .modify fun _ => rfl
  | setOurNetmask netmask => exact .modify fun _ => rfl

/-- Every sequence of operations. -/
theorem execAll_translates (ops : List Op) :
    Follows (later delta) id (execAll ops) (execAll (ops.map (Op.later delta))) := by
  induction ops with
  | nil => exact .pure _
  | cons op rest ih => exact .bind (exec_translates op) fun _ => ih

end MiniIp.Invariant
