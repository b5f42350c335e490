import MiniIp.Invariant.ApplicationFrame

/-!
# What the operations are composed of

All operations but `arp_task` do the same few things to the ARP table and to the
adapter: they call `arp_send`, they handle an ARP frame, or they broadcast an
IPv4 packet. Whatever else they do leaves the table and the clock alone and sends
nothing. So a relation that tolerates these holds from before to after each
operation.
-/

set_option autoImplicit false

namespace MiniIp.Invariant

open MiniIp.Source MiniIp.Library.Wp

/-- An event of no concern to the ARP table, and no frame. -/
def QuietEvent : Event → Prop
  | .window .. | .freed _ | .udpSend .. | .udpQueued .. | .udpTaken .. | .dhcpSent _ | .dhcpState _ | .dhcpOffer |
    .dhcpAck => True
  | .macSend .. | .gmacSend .. | .arpSend .. | .arpEvicted _ | .arpMapped .. => False

/-- The step leaves the ARP table and the clock alone. -/
structure LeavesArp (s t : Stack) : Prop where
  arp : t.arp = s.arp
  time : t.time = s.time
  trace : ∃ new, t.trace = new ++ s.trace ∧ ∀ event ∈ new, QuietEvent event

/-- A relation between the states before and after that every part of an operation meets when it returns. -/
structure Tolerant (R : Stack → Stack → Prop) : Prop where
  refl : ∀ s, R s s
  trans : ∀ s t u, R s t → R t u → R s u
  leavesArp : ∀ s t, LeavesArp s t → R s t
  macSend : ∀ packet mac, Leads R (macSend packet mac etherTypeIpv4)
  arpSend : ∀ packet ip, Leads R (arpSend packet ip)
  handleArp : ∀ packet, Leads R (handleArp packet)

/-- The computation is composed of such parts. -/
def Composed {α : Type} (x : Net α) : Prop := ∀ R, Tolerant R → Leads R x

namespace Composed

variable {α β : Type}

theorem pure (a : α) : Composed (pure a) := fun _ hR s => hR.refl s

theorem get : Composed (get : Net Stack) := fun _ hR s => hR.refl s

theorem throw (halt : Halt) : Composed (throw halt : Net α) := fun _ _ => Leads.throw halt

theorem bind {x : Net α} {f : α → Net β} (hx : Composed x) (hf : ∀ a, Composed (f a)) : Composed (x >>= f) := by
  intro R hR
  have htrans : IsTrans Stack R := ⟨hR.trans⟩
  exact Leads.bind (hx R hR) fun a => hf a R hR

theorem ite {c : Prop} [Decidable c] {x y : Net α} (hx : Composed x) (hy : Composed y) :
    Composed (if c then x else y) := fun R hR => Leads.ite (hx R hR) (hy R hR)

theorem modify {f : Stack → Stack} (h : ∀ s, LeavesArp s (f s)) : Composed (modify f : Net Unit) :=
  fun _ hR s => hR.leavesArp s (f s) (h s)

end Composed

theorem LeavesArp.assign {s t : Stack} (harp : t.arp = s.arp) (htime : t.time = s.time) (htrace : t.trace = s.trace) :
    LeavesArp s t := ⟨harp, htime, [], htrace, by simp⟩

theorem assign_composed {f : Stack → Stack} (h : ∀ s, (f s).arp = s.arp ∧ (f s).time = s.time ∧ (f s).trace = s.trace) :
    Composed (modify f : Net Unit) := .modify fun s => .assign (h s).1 (h s).2.1 (h s).2.2

theorem emit_composed {event : Event} (h : QuietEvent event) : Composed (emit event) :=
  .modify fun s => ⟨rfl, rfl, [event], rfl, by simpa using h⟩

theorem getPacket_composed (packet : PacketId) : Composed (getPacket packet) := .bind .get fun _ => .pure _

theorem modifyPacket_composed (packet : PacketId) (f : NetworkPacket → NetworkPacket) :
    Composed (modifyPacket packet f) := assign_composed fun _ => ⟨rfl, rfl, rfl⟩

theorem modifyConnection_composed (connection : UdpConnectionId) (f : UdpConnection → UdpConnection) :
    Composed (modifyConnection connection f) := assign_composed fun _ => ⟨rfl, rfl, rfl⟩

theorem modifyDhcp_composed (f : Dhcp → Dhcp) : Composed (modifyDhcp f) := assign_composed fun _ => ⟨rfl, rfl, rfl⟩

theorem getTime_composed : Composed getTime := .bind .get fun _ => .pure _

theorem random_composed : Composed random :=
  .bind .get fun _ => .bind (assign_composed fun _ => ⟨rfl, rfl, rfl⟩) fun _ => .pure _

theorem recordWindow_composed (site : Site) (packet : PacketId) (headerSize : Int) :
    Composed (recordWindow site packet headerSize) := .bind (getPacket_composed _) fun _ => emit_composed trivial

theorem freeNetworkPacket_composed (packet : PacketId) : Composed (freeNetworkPacket packet) :=
  .bind (assign_composed fun _ => ⟨rfl, rfl, rfl⟩) fun _ => emit_composed trivial

theorem allocateNetworkPacket_composed : Composed allocateNetworkPacket := by
  refine .bind .get fun s => ?_
  split
  · exact .throw _
  · exact .bind (assign_composed fun _ => ⟨rfl, rfl, rfl⟩) fun _ => .bind (modifyPacket_composed _ _) fun _ => .pure _

theorem macBroadcast_composed (packet : PacketId) : Composed (macBroadcast packet etherTypeIpv4) :=
  fun _ hR => hR.macSend packet broadcastMac

theorem arpSend_composed (packet : PacketId) (ip : Ip) : Composed (arpSend packet ip) := fun _ hR => hR.arpSend packet ip

theorem handleArp_composed (packet : PacketId) : Composed (handleArp packet) := fun _ hR => hR.handleArp packet

theorem ipSend_composed (packet : PacketId) (ip : Ip) (protocol : UInt8) : Composed (ipSend packet ip protocol) :=
  .bind (modifyPacket_composed _ _) fun _ => .bind (recordWindow_composed _ _ _) fun _ => .bind .get fun _ =>
    .bind (modifyPacket_composed _ _) fun _ => .ite (macBroadcast_composed _) (arpSend_composed _ _)

theorem udpSendZeroCopy_composed (packet : PacketId) (sourcePort destPort : Port) (ip : Ip) :
    Composed (udpSendZeroCopy packet sourcePort destPort ip) :=
  .bind (getPacket_composed _) fun _ => .bind (emit_composed trivial) fun _ => .bind (modifyPacket_composed _ _) fun _ =>
    .bind (recordWindow_composed _ _ _) fun _ => .bind .get fun _ => .bind (modifyPacket_composed _ _) fun _ =>
    .bind (modifyPacket_composed _ _) fun _ => ipSend_composed _ _ _

theorem sendToIp_composed (bytes : List UInt8) (ip : Ip) : Composed (sendToIp bytes ip) :=
  .bind allocateNetworkPacket_composed fun _ => .bind (modifyPacket_composed _ _) fun _ => arpSend_composed _ _

theorem udpSend_composed (data : Nat → UInt8) (size : Int) (sourcePort destPort : Port) (ip : Ip) :
    Composed (udpSend data size sourcePort destPort ip) :=
  .bind allocateNetworkPacket_composed fun _ => .bind (modifyPacket_composed _ _) fun _ =>
    udpSendZeroCopy_composed _ _ _ _

theorem udpReceiveZeroCopy_composed (port : Port) : Composed (udpReceiveZeroCopy port) := by
  refine .bind .get fun s => ?_
  split
  · exact .pure _
  · refine .bind .get fun t => .ite (.pure _) ?_
    split
    · exact .throw _
    · exact .bind (modifyConnection_composed _ _) fun _ => .bind (getPacket_composed _) fun _ =>
        .bind (emit_composed trivial) fun _ => .pure _

theorem udpReceive_composed (size : Int) (port : Port) : Composed (udpReceive size port) := by
  refine .bind (udpReceiveZeroCopy_composed port) fun taken => ?_
  cases taken with
  | none => exact .pure _
  | some packet =>
    exact .bind (getPacket_composed _) fun _ => .bind (freeNetworkPacket_composed _) fun _ => .pure _

theorem udpLimitQueue_composed (connection : UdpConnectionId) : Composed (udpLimitQueue connection) := by
  refine .bind .get fun s => .ite ?_ (.pure _)
  split
  · exact .throw _
  · exact .bind (modifyConnection_composed _ _) fun _ => .bind (freeNetworkPacket_composed _) fun _ =>
      modifyConnection_composed _ _

theorem udpQueuePacket_composed (connection : UdpConnectionId) (packet : PacketId) :
    Composed (udpQueuePacket connection packet) :=
  .bind (modifyConnection_composed _ _) fun _ => .bind (recordWindow_composed _ _ _) fun _ => .bind .get fun _ =>
    .bind (emit_composed trivial) fun _ => udpLimitQueue_composed _

theorem handleUdp_composed (packet : PacketId) : Composed (handleUdp packet) := by
  refine .bind (getPacket_composed _) fun _ => .ite (freeNetworkPacket_composed _)
    (.bind (recordWindow_composed _ _ _) fun _ => .bind (modifyPacket_composed _ _) fun _ => .bind .get fun s => ?_)
  split
  · exact freeNetworkPacket_composed _
  · exact udpQueuePacket_composed _ _

theorem handleIcmp_composed (packet : PacketId) : Composed (handleIcmp packet) :=
  .bind (getPacket_composed _) fun _ => .ite (freeNetworkPacket_composed _) (.bind (recordWindow_composed _ _ _) fun _ =>
    .ite (.bind (modifyPacket_composed _ _) fun _ => ipSend_composed _ _ _) (freeNetworkPacket_composed _))

theorem handleIp_composed (packet : PacketId) : Composed (handleIp packet) := by
  have hfree := freeNetworkPacket_composed packet
  exact .bind (getPacket_composed _) fun _ => .ite hfree (.bind (recordWindow_composed _ _ _) fun _ =>
    .bind (modifyPacket_composed _ _) fun _ => .ite hfree (.bind (modifyPacket_composed _ _) fun _ =>
      .bind .get fun _ => .ite hfree (.ite (handleUdp_composed _) (.ite (handleIcmp_composed _) hfree))))

/-- A received frame is handled by ARP, answered by `ip_send`, or put in a queue. -/
theorem handleMac_composed (packet : PacketId) : Composed (handleMac packet) := by
  have hfree := freeNetworkPacket_composed packet
  exact .bind (getPacket_composed _) fun _ => .ite hfree (.bind (recordWindow_composed _ _ _) fun _ =>
    .bind (modifyPacket_composed _ _) fun _ => .ite (handleArp_composed _) (.ite (handleIp_composed _) hfree))

theorem gmacReceive_composed : Composed gmacReceive := by
  have hassign : ∀ f : Stack → Stack, (∀ s, (f s).arp = s.arp ∧ (f s).time = s.time ∧ (f s).trace = s.trace) →
      Composed (modify f : Net Unit) := fun f hf => assign_composed hf
  refine .bind .get fun _ => .bind .get fun _ => .ite (.pure _)
    (.ite (.bind (hassign _ fun _ => ⟨rfl, rfl, rfl⟩) fun _ => .pure _) (.bind .get fun s => ?_))
  split
  · exact .throw _
  · exact .bind (modifyPacket_composed _ _) fun _ => .bind allocateNetworkPacket_composed fun _ =>
      .bind (hassign _ fun _ => ⟨rfl, rfl, rfl⟩) fun _ => .bind (hassign _ fun _ => ⟨rfl, rfl, rfl⟩) fun _ =>
      .bind (hassign _ fun _ => ⟨rfl, rfl, rfl⟩) fun _ => .pure _

/-- Taking a frame from the ring touches neither the table nor the clock. -/
theorem receivePacket_composed : Composed receivePacket := by
  refine .bind gmacReceive_composed fun received => ?_
  cases received with
  | none => exact .pure _
  | some packet => exact .bind (handleMac_composed packet) fun _ => .pure _

theorem gmacReceiveDone_composed (slot : Fin 32) (status : RxStatus) (bytes : Memory) :
    Composed (gmacReceiveDone slot status bytes) := by
  refine .bind .get fun _ => .ite (.bind .get fun s => ?_) (.pure _)
  split
  · exact .pure _
  · exact .bind (modifyPacket_composed _ _) fun _ => assign_composed fun _ => ⟨rfl, rfl, rfl⟩

theorem udpListen_composed (port : Port) (maxPacketCount : Int) : Composed (udpListen port maxPacketCount) := by
  refine .bind .get fun s => ?_
  split
  · exact .throw _
  · exact .bind (assign_composed fun _ => ⟨rfl, rfl, rfl⟩) fun _ => .bind (modifyConnection_composed _ _) fun _ =>
      assign_composed fun _ => ⟨rfl, rfl, rfl⟩

theorem setDhcpState_composed (state : DhcpState) : Composed (setDhcpState state) :=
  .bind (modifyDhcp_composed _) fun _ => emit_composed trivial

theorem dhcpStart_composed : Composed dhcpStart :=
  .bind (setDhcpState_composed _) fun _ => .bind random_composed fun _ => .bind getTime_composed fun _ =>
    .bind (modifyDhcp_composed _) fun _ => udpListen_composed _ _

theorem dhcpSendPacket_composed (type : DhcpPacketType) : Composed (dhcpSendPacket type) :=
  .bind allocateNetworkPacket_composed fun _ => .bind .get fun _ => .bind (modifyPacket_composed _ _) fun _ =>
    .bind (emit_composed trivial) fun _ => udpSendZeroCopy_composed _ _ _ _

/-- The client broadcasts, and does not use the table. -/
theorem client_composed : ClientParts (fun _ => True) fun _ x => Composed x where
  value := .pure
  state := .get
  next := .bind
  read := by
    apply dhcpRead_of ⟨.pure, .get, .bind⟩
    · exact udpReceiveZeroCopy_composed _
    · exact getPacket_composed
    · exact fun _ => assign_composed fun _ => ⟨rfl, rfl, rfl⟩
    · exact freeNetworkPacket_composed
  assign := modifyDhcp_composed
  offer := emit_composed trivial
  ack := emit_composed trivial
  send := dhcpSendPacket_composed
  draw := random_composed
  enter _ _ := emit_composed trivial
  address _ := assign_composed fun _ => ⟨rfl, rfl, rfl⟩
  netmask _ := assign_composed fun _ => ⟨rfl, rfl, rfl⟩

theorem dhcpTask_composed : Composed dhcpTask := dhcpTask_of client_composed fun _ => trivial

theorem sendTftpPacket_composed (connection : TftpConnection) (destPort : Port) (bytes : List UInt8) :
    Composed (sendTftpPacket connection destPort bytes) :=
  .bind allocateNetworkPacket_composed fun _ => .bind (modifyPacket_composed _ _) fun _ =>
    udpSendZeroCopy_composed _ _ _ _

theorem tftpSendOnTimeout_composed (connection : TftpConnection) {send : Net Unit} (hsend : Composed send) :
    Composed (tftpSendOnTimeout connection send) :=
  .bind getTime_composed fun _ => .ite (.bind hsend fun _ => .bind random_composed fun _ =>
    .bind getTime_composed fun _ => .pure _) (.pure _)

theorem tryReadOack_composed (connection : TftpConnection) : Composed (tryReadOack connection) := by
  refine .bind (udpReceiveZeroCopy_composed _) fun taken => ?_
  cases taken with
  | none => exact .pure _
  | some packet =>
    refine .bind (getPacket_composed _) fun p => .ite (.pure _) (.bind (freeNetworkPacket_composed _) fun _ => ?_)
    split
    · exact .pure _
    · exact .pure _

theorem tryReadData_composed (connection : TftpConnection) (size : Int) : Composed (tryReadData connection size) := by
  refine .bind (udpReceiveZeroCopy_composed _) fun taken => ?_
  cases taken with
  | none => exact .pure _
  | some packet =>
    have hfreed : ∀ a : TftpResult × TftpConnection, Composed (do
        freeNetworkPacket packet
        return a) := fun _ => .bind (freeNetworkPacket_composed _) fun _ => .pure _
    exact .bind (getPacket_composed _) fun _ => .ite (.bind (sendTftpPacket_composed _ _ _) fun _ => hfreed _)
      (.ite (.bind (sendTftpPacket_composed _ _ _) fun _ => hfreed _) (.ite (hfreed _) (hfreed _)))

/-- The client of TFTP sends to its server by `ip_send`. -/
theorem tftpRead_composed (connection : TftpConnection) (size : Int) : Composed (tftpRead connection size) := by
  unfold tftpRead
  split
  · refine .bind (.bind (tftpSendOnTimeout_composed _ (sendTftpPacket_composed _ _ _)) fun _ =>
      .bind (tryReadOack_composed _) fun _ => .pure _) fun _ => .pure _
  · refine .bind (tftpSendOnTimeout_composed _ (sendTftpPacket_composed _ _ _)) fun _ =>
      .bind (tryReadData_composed _ _) fun out => ?_
    exact .ite (.ite (.bind (sendTftpPacket_composed _ _ _) fun _ => .pure _) (.pure _)) (.pure _)
  · exact .pure _
  · exact .pure _

/-- The operations that are not: the poll of the table, and the clock. -/
def Op.TouchesTimers : Op → Prop
  | .arpTask | .tick _ => True
  | _ => False

theorem exec_composed {op : Op} (h : ¬ Op.TouchesTimers op) : Composed op.exec := by
  cases op with
  | receiveDone slot status bytes => exact gmacReceiveDone_composed slot status bytes
  | transmitDone slot => exact assign_composed fun _ => ⟨rfl, rfl, rfl⟩
  | transmitStatus tsr => exact assign_composed fun _ => ⟨rfl, rfl, rfl⟩
  | tick now => exact absurd trivial h
  | receive => exact .bind receivePacket_composed fun _ => .pure _
  | arpTask => exact absurd trivial h
  | sendToIp bytes ip => exact sendToIp_composed bytes ip
  | udpListen port maxPacketCount => exact udpListen_composed port maxPacketCount
  | udpSend data size sourcePort destPort ip => exact udpSend_composed data size sourcePort destPort ip
  | udpReceive size port => exact .bind (udpReceive_composed size port) fun _ => .pure _
  | dhcpStart => exact dhcpStart_composed
  | dhcpTask => exact dhcpTask_composed
  | dhcpRelease => exact dhcpSendPacket_composed .release
  | downloadFile filename serverIp =>
    exact .bind .get fun _ => .bind (.bind (udpListen_composed _ _) fun _ => .pure _) fun _ =>
      assign_composed fun _ => ⟨rfl, rfl, rfl⟩
  | readFile size =>
    exact .bind .get fun _ => .bind (tftpRead_composed _ _) fun _ => assign_composed fun _ => ⟨rfl, rfl, rfl⟩
  | abortDownload errorMessage => exact .bind .get fun _ => sendTftpPacket_composed _ _ _
  | setOurMac mac => exact assign_composed fun _ => ⟨rfl, rfl, rfl⟩
  | setOurIp ip => exact assign_composed fun _ => ⟨rfl, rfl, rfl⟩
  | setOurNetmask netmask => exact assign_composed fun _ => ⟨rfl, rfl, rfl⟩

end MiniIp.Invariant
