import MiniIp.Invariant.Handover
import MiniIp.Source.System

/-!
# Runs around a packet that waits

No operation looks at the bytes outside the window of a packet that waits for its MAC address.
-/

set_option autoImplicit false

namespace MiniIp.Invariant

open MiniIp.Source MiniIp.Library.Wp MiniIp.Library.TwoRuns

variable {p q : PacketId} {k k' : NetworkPacket} {base : List Event} {c : Prop}

theorem udpReceiveZeroCopy_blind (port : Port) :
    Lockstep (overwritten p k k' base) c (fun taken => ∀ q, taken = some q → q ≠ p) (udpReceiveZeroCopy port) := by
  have hnone : ∀ c, Lockstep (overwritten p k k' base) c (fun taken => ∀ q, taken = some q → q ≠ p)
      (pure none : Net (Option PacketId)) := fun _ => .pure fun _ q hq => by cases hq
  refine read_blind (fun _ => rfl) fun s => ?_
  split
  · exact hnone _
  · next connection _ =>
    refine readWaits_blind (fun _ => rfl) fun s => ?_
    dsimp only
    refine .ite (fun _ => hnone _) fun _ => ?_
    split
    · exact .throw _
    · next q rest hqueue =>
      have hapart : c ∧ Waits p k s → q ≠ p ∧ p ∉ rest := by
        intro hc
        have hnot := hc.2.udp connection
        rw [hqueue, List.mem_cons, not_or] at hnot
        exact ⟨fun heq => hnot.1 heq.symm, hnot.2⟩
      refine .bind (modifyConnection_blind fun hc _ _ => (hapart hc).2) fun _ =>
        .bind (getPacket_blind fun hc => (hapart hc).1) fun _ => .bind (emit_blind fun _ => rfl) fun _ => .pure ?_
      rintro hc a ha
      cases ha
      exact (hapart hc).1

theorem udpReceive_blind (size : Int) (port : Port) : Blind p k k' base c (udpReceive size port) := by
  refine (udpReceiveZeroCopy_blind port).bindWith fun taken => ?_
  cases taken with
  | none => exact pure_blind _
  | some q =>
    have hne : c ∧ (∀ a, some q = some a → a ≠ p) → q ≠ p := fun hc => hc.2 q rfl
    exact .bind (getPacket_blind hne) fun _ => .bind (freeNetworkPacket_blind _) fun _ => pure_blind _

theorem udpLimitQueue_blind (connection : UdpConnectionId) : Blind p k k' base c (udpLimitQueue connection) := by
  refine readWaits_blind (fun _ => rfl) fun s => .ite (fun _ => ?_) fun _ => pure_blind _
  split
  · exact .throw _
  · next old rest hqueue =>
    have hapart : c ∧ Waits p k s → p ∉ rest := by
      intro hc
      have hnot := hc.2.udp connection
      rw [hqueue, List.mem_cons, not_or] at hnot
      exact hnot.2
    exact .bind (modifyConnection_blind fun hc _ _ => hapart hc) fun _ => .bind (freeNetworkPacket_blind _)
      fun _ => modifyConnection_blind fun _ _ hv => hv

theorem udpQueuePacket_blind (connection : UdpConnectionId) (h : c → q ≠ p) :
    Blind p k k' base c (udpQueuePacket connection q) := by
  refine .bind (modifyConnection_blind fun hc v hv => ?_) fun _ => .bind (recordWindow_blind _ _ _) fun _ =>
    read_blind (fun _ => rfl) fun _ => .bind (emit_blind fun _ => rfl) fun _ => udpLimitQueue_blind _
  rw [List.mem_append, List.mem_singleton, not_or]
  exact ⟨hv, (h hc).symm⟩

theorem handleUdp_blind (h : c → q ≠ p) : Blind p k k' base c (handleUdp q) := by
  refine .bind (getPacket_blind h) fun _ => .ite (fun _ => freeNetworkPacket_blind _) fun _ =>
    .bind (recordWindow_blind _ _ _) fun _ => .bind (modifyPacket_blind h _) fun _ => read_blind (fun _ => rfl)
    fun s => ?_
  split
  · exact freeNetworkPacket_blind _
  · exact udpQueuePacket_blind _ h

theorem ipSend_blind (ip : Ip) (protocol : UInt8) (h : c → q ≠ p) : Blind p k k' base c (ipSend q ip protocol) :=
  .bind (modifyPacket_blind h _) fun _ => .bind (recordWindow_blind _ _ _) fun _ => read_blind (fun _ => rfl)
    fun _ => .bind (modifyPacket_blind h _) fun _ => .ite (fun _ => macSend_blind fun _ _ => rfl) fun _ =>
    arpSend_blind _ _

theorem udpSendZeroCopy_blind (sourcePort destPort : Port) (ip : Ip) (h : c → q ≠ p) :
    Blind p k k' base c (udpSendZeroCopy q sourcePort destPort ip) :=
  .bind (getPacket_blind h) fun _ => .bind (emit_blind fun _ => rfl) fun _ => .bind (modifyPacket_blind h _)
    fun _ => .bind (recordWindow_blind _ _ _) fun _ => read_blind (fun _ => rfl) fun _ =>
    .bind (modifyPacket_blind h _) fun _ => .bind (modifyPacket_blind h _) fun _ => ipSend_blind _ _ h

theorem handleIcmp_blind (h : c → q ≠ p) : Blind p k k' base c (handleIcmp q) :=
  .bind (getPacket_blind h) fun _ => .ite (fun _ => freeNetworkPacket_blind _) fun _ =>
    .bind (recordWindow_blind _ _ _) fun _ => .ite (fun _ => .bind (modifyPacket_blind h _) fun _ =>
    ipSend_blind _ _ h) fun _ => freeNetworkPacket_blind _

theorem handleIp_blind (h : c → q ≠ p) : Blind p k k' base c (handleIp q) := by
  have hfree : Blind p k k' base c (freeNetworkPacket q) := freeNetworkPacket_blind q
  exact .bind (getPacket_blind h) fun _ => .ite (fun _ => hfree) fun _ => .bind (recordWindow_blind _ _ _) fun _ =>
    .bind (modifyPacket_blind h _) fun _ => .ite (fun _ => hfree) fun _ => .bind (modifyPacket_blind h _) fun _ =>
    read_blind (fun _ => rfl) fun _ => .ite (fun _ => hfree) fun _ => .ite (fun _ => handleUdp_blind h) fun _ =>
    .ite (fun _ => handleIcmp_blind h) fun _ => hfree

/-- A received frame is in another packet than the one that waits. -/
theorem handleMac_blind (h : c → q ≠ p) : Blind p k k' base c (handleMac q) := by
  have hfree : Blind p k k' base c (freeNetworkPacket q) := freeNetworkPacket_blind q
  exact .bind (getPacket_blind h) fun _ => .ite (fun _ => hfree) fun _ => .bind (recordWindow_blind _ _ _) fun _ =>
    .bind (modifyPacket_blind h _) fun _ => .ite (fun _ => handleArp_blind h) fun _ =>
    .ite (fun _ => handleIp_blind h) fun _ => hfree

theorem gmacReceive_blind :
    Lockstep (overwritten p k k' base) c (fun received => ∀ q, received = some q → q ≠ p) gmacReceive := by
  have hnone : ∀ c, Lockstep (overwritten p k k' base) c (fun received => ∀ q, received = some q → q ≠ p)
      (pure none : Net (Option PacketId)) := fun _ => .pure fun _ q hq => by cases hq
  refine read_blind (fun _ => rfl) fun u => read_blind (fun _ => rfl) fun v => .ite (fun _ => hnone _) fun _ =>
    .ite (fun _ => .bind (assign_blind (fun _ => rfl) fun _ => rfl) fun _ => hnone _) fun _ =>
    readWaits_blind (fun _ => rfl) fun s => ?_
  split
  · exact .throw _
  · next q hslot =>
    have hapart : c ∧ Waits p k s → q ≠ p := by
      rintro hc rfl
      exact hc.2.rx _ hslot
    refine .bind (modifyPacket_blind hapart _) fun _ => allocateNetworkPacket_blind.bindWith fun next => ?_
    refine .bind (setRxPacket_blind fun hc => hc.2) fun _ => .bind (assign_blind (fun _ => rfl) fun _ => rfl) fun _ =>
      .bind (assign_blind (fun _ => rfl) fun _ => rfl) fun _ => .pure ?_
    rintro hc a ha
    cases ha
    exact hapart hc.1

/-- The same of the next frame in the ring. -/
theorem receivePacket_blind : Blind p k k' base c receivePacket := by
  refine gmacReceive_blind.bindWith fun received => ?_
  cases received with
  | none => exact pure_blind _
  | some q => exact .bind (handleMac_blind fun hc => hc.2 q rfl) fun _ => pure_blind _

/-- The hardware fills a packet of the receive ring. -/
theorem gmacReceiveDone_blind (slot : Fin 32) (status : RxStatus) (bytes : Memory) :
    Blind p k k' base c (gmacReceiveDone slot status bytes) := by
  refine read_blind (fun _ => rfl) fun _ => .ite (fun _ => readWaits_blind (fun _ => rfl) fun s => ?_)
    fun _ => pure_blind _
  split
  · exact pure_blind _
  · next q hslot =>
    have hapart : c ∧ Waits p k s → q ≠ p := by
      rintro hc rfl
      exact hc.2.rx _ hslot
    exact .bind (modifyPacket_blind hapart _) fun _ => assign_blind (fun _ => rfl) fun _ => rfl

theorem random_blind : Blind p k k' base c random :=
  read_blind (fun _ => rfl) fun _ => .bind (assign_blind (fun _ => rfl) fun _ => rfl) fun _ => pure_blind _

theorem modifyDhcp_blind (f : Dhcp → Dhcp) : Blind p k k' base c (modifyDhcp f) :=
  assign_blind (fun _ => rfl) fun _ => rfl

theorem setDhcpState_blind (state : DhcpState) : Blind p k k' base c (setDhcpState state) :=
  .bind (modifyDhcp_blind _) fun _ => emit_blind fun _ => rfl

theorem dhcpSendPacket_blind (type : DhcpPacketType) : Blind p k k' base c (dhcpSendPacket type) := by
  refine allocateNetworkPacket_blind.bindWith fun q => ?_
  have hne : c ∧ q ≠ p → q ≠ p := fun hc => hc.2
  exact read_blind (fun _ => rfl) fun _ => .bind (modifyPacket_blind hne _) fun _ => .bind (emit_blind fun _ => rfl)
    fun _ => udpSendZeroCopy_blind _ _ _ hne

theorem dhcpRead_blind : Blind p k k' base c dhcpRead := by
  refine (udpReceiveZeroCopy_blind _).bindWith fun taken => ?_
  cases taken with
  | none => exact pure_blind _
  | some q =>
    exact .bind (getPacket_blind fun hc => hc.2 q rfl) fun _ => read_blind (fun _ => rfl) fun _ =>
      .bind (assign_blind (fun _ => rfl) fun _ => rfl) fun _ => .bind (freeNetworkPacket_blind _) fun _ =>
      pure_blind _

theorem tryReadOffer_blind : Blind p k k' base c tryReadOffer :=
  .bind dhcpRead_blind fun _ => .ite (fun _ => pure_blind _) fun _ => read_blind (fun _ => rfl) fun _ =>
    .ite (fun _ => pure_blind _) fun _ => .bind (modifyDhcp_blind _) fun _ => .bind (emit_blind fun _ => rfl)
    fun _ => pure_blind _

theorem tryReadAck_blind : Blind p k k' base c tryReadAck :=
  .bind dhcpRead_blind fun _ => .ite (fun _ => pure_blind _) fun _ => read_blind (fun _ => rfl) fun _ =>
    read_blind (fun _ => rfl) fun _ => .ite (fun _ => pure_blind _) fun _ => .ite (fun _ => pure_blind _) fun _ =>
    .ite (fun _ => pure_blind _) fun _ => .ite (fun _ => pure_blind _) fun _ => .bind getTime_blind fun _ =>
    .bind (modifyDhcp_blind _) fun _ => .bind (emit_blind fun _ => rfl) fun _ => pure_blind _

theorem dhcpSendOnTimeout_blind (type : DhcpPacketType) : Blind p k k' base c (dhcpSendOnTimeout type) :=
  read_blind (fun _ => rfl) fun _ => .bind getTime_blind fun _ => .ite (fun _ => .bind (dhcpSendPacket_blind _)
    fun _ => .bind random_blind fun _ => .bind getTime_blind fun _ => modifyDhcp_blind _) fun _ => pure_blind _

theorem dhcpRenew_blind : Blind p k k' base c dhcpRenew := by
  refine .bind (dhcpSendOnTimeout_blind _) fun _ => .bind tryReadAck_blind fun isAck => ?_
  split
  · exact pure_blind _
  · exact setDhcpState_blind _
  · exact setDhcpState_blind _

theorem dhcpRequestingTask_blind : Blind p k k' base c dhcpRequestingTask := by
  refine .bind (dhcpSendOnTimeout_blind _) fun _ => .bind tryReadAck_blind fun isAck => ?_
  split
  · exact pure_blind _
  · exact .bind (setDhcpState_blind _) fun _ => read_blind (fun _ => rfl) fun _ =>
      .bind (assign_blind (fun _ => rfl) fun _ => rfl) fun _ => read_blind (fun _ => rfl) fun _ =>
      assign_blind (fun _ => rfl) fun _ => rfl
  · exact .bind (modifyDhcp_blind _) fun _ => .bind (setDhcpState_blind _) fun _ => modifyDhcp_blind _

/-- The client sends packets of its own. -/
theorem dhcpTask_blind : Blind p k k' base c dhcpTask := by
  have hnext : ∀ state, Blind p k k' base c (do setDhcpState state; resetDhcpBackoff) := fun state =>
    .bind (setDhcpState_blind state) fun _ => modifyDhcp_blind _
  refine read_blind (fun _ => rfl) fun s => ?_
  split
  · exact pure_blind _
  · exact .bind (dhcpSendOnTimeout_blind _) fun _ => .bind tryReadOffer_blind fun _ =>
      .ite (fun _ => hnext _) fun _ => pure_blind _
  · exact dhcpRequestingTask_blind
  · exact read_blind (fun _ => rfl) fun _ => .bind getTime_blind fun _ => .ite (fun _ => hnext _) fun _ =>
      pure_blind _
  · exact read_blind (fun _ => rfl) fun _ => .bind getTime_blind fun _ =>
      .ite (fun _ => .bind (setDhcpState_blind _) fun _ => dhcpRenew_blind) fun _ => dhcpRenew_blind
  · exact read_blind (fun _ => rfl) fun _ => .bind getTime_blind fun _ => .ite (fun _ => hnext _) fun _ =>
      pure_blind _
  · exact pure_blind _

theorem udpListen_blind (port : Port) (maxPacketCount : Int) : Blind p k k' base c (udpListen port maxPacketCount) := by
  refine read_blind (fun _ => rfl) fun s => ?_
  split
  · exact .throw _
  · exact .bind (assign_blind (fun _ => rfl) fun _ => rfl) fun _ => .bind (modifyConnection_blind fun _ _ hv => hv)
      fun _ => assign_blind (fun _ => rfl) fun _ => rfl

theorem dhcpStart_blind : Blind p k k' base c dhcpStart :=
  .bind (setDhcpState_blind _) fun _ => .bind random_blind fun _ => .bind getTime_blind fun _ =>
    .bind (modifyDhcp_blind _) fun _ => udpListen_blind _ _

theorem sendTftpPacket_blind (connection : TftpConnection) (destPort : Port) (bytes : List UInt8) :
    Blind p k k' base c (sendTftpPacket connection destPort bytes) := by
  refine allocateNetworkPacket_blind.bindWith fun q => ?_
  have hne : c ∧ q ≠ p → q ≠ p := fun hc => hc.2
  exact .bind (modifyPacket_blind hne _) fun _ => udpSendZeroCopy_blind _ _ _ hne

theorem tftpSendOnTimeout_blind (connection : TftpConnection) {send : Net Unit}
    (hsend : Blind p k k' base c send) : Blind p k k' base c (tftpSendOnTimeout connection send) :=
  .bind getTime_blind fun _ => .ite (fun _ => .bind hsend fun _ => .bind random_blind fun _ =>
    .bind getTime_blind fun _ => pure_blind _) fun _ => pure_blind _

theorem tryReadOack_blind (connection : TftpConnection) : Blind p k k' base c (tryReadOack connection) := by
  refine (udpReceiveZeroCopy_blind _).bindWith fun taken => ?_
  cases taken with
  | none => exact pure_blind _
  | some q =>
    refine .bind (getPacket_blind fun hc => hc.2 q rfl) fun _ => .ite (fun _ => pure_blind _) fun _ =>
      .bind (freeNetworkPacket_blind _) fun _ => ?_
    split
    · exact pure_blind _
    · exact pure_blind _

theorem tryReadData_blind (connection : TftpConnection) (size : Int) :
    Blind p k k' base c (tryReadData connection size) := by
  refine (udpReceiveZeroCopy_blind _).bindWith fun taken => ?_
  cases taken with
  | none => exact pure_blind _
  | some q =>
    refine .bind (getPacket_blind fun hc => hc.2 q rfl) fun _ => .ite (fun _ => ?_) fun _ => .ite (fun _ => ?_)
      fun _ => .ite (fun _ => ?_) fun _ => ?_
    · exact .bind (sendTftpPacket_blind _ _ _) fun _ => .bind (freeNetworkPacket_blind _) fun _ => pure_blind _
    · exact .bind (sendTftpPacket_blind _ _ _) fun _ => .bind (freeNetworkPacket_blind _) fun _ => pure_blind _
    · exact .bind (freeNetworkPacket_blind _) fun _ => pure_blind _
    · exact .bind (freeNetworkPacket_blind _) fun _ => pure_blind _

/-- A poll looks at the packet that it has taken from its queue. -/
theorem tftpRead_blind (connection : TftpConnection) (size : Int) :
    Blind p k k' base c (tftpRead connection size) := by
  unfold tftpRead
  split
  · exact .bind (.bind (tftpSendOnTimeout_blind _ (sendTftpPacket_blind _ _ _)) fun _ =>
      .bind (tryReadOack_blind _) fun _ => pure_blind _) fun _ => pure_blind _
  · exact .bind (tftpSendOnTimeout_blind _ (sendTftpPacket_blind _ _ _)) fun _ =>
      .bind (tryReadData_blind _ _) fun _ => .ite (fun _ => .ite (fun _ => .bind (sendTftpPacket_blind _ _ _)
      fun _ => pure_blind _) fun _ => pure_blind _) fun _ => pure_blind _
  · exact pure_blind _
  · exact pure_blind _

theorem udpSend_blind (data : Nat → UInt8) (size : Int) (sourcePort destPort : Port) (ip : Ip) :
    Blind p k k' base c (udpSend data size sourcePort destPort ip) := by
  refine allocateNetworkPacket_blind.bindWith fun q => ?_
  have hne : c ∧ q ≠ p → q ≠ p := fun hc => hc.2
  exact .bind (modifyPacket_blind hne _) fun _ => udpSendZeroCopy_blind _ _ _ hne

theorem sendToIp_blind (bytes : List UInt8) (ip : Ip) : Blind p k k' base c (sendToIp bytes ip) := by
  refine allocateNetworkPacket_blind.bindWith fun q => ?_
  exact .bind (modifyPacket_blind (fun hc => hc.2) _) fun _ => arpSend_blind _ _

/-- No operation looks at the bytes outside the window of a packet that waits. -/
theorem exec_blind (op : Op) : Blind p k k' base c op.exec := by
  cases op with
  | receiveDone slot status bytes => exact gmacReceiveDone_blind slot status bytes
  | transmitDone slot => exact assign_blind (fun _ => rfl) fun _ => rfl
  | transmitStatus tsr => exact assign_blind (fun _ => rfl) fun _ => rfl
  | tick now => exact assign_blind (fun _ => rfl) fun _ => rfl
  | receive => exact .bind receivePacket_blind fun _ => pure_blind _
  | arpTask => exact arpTask_blind
  | sendToIp bytes ip => exact sendToIp_blind bytes ip
  | udpListen port maxPacketCount => exact udpListen_blind port maxPacketCount
  | udpSend data size sourcePort destPort ip => exact udpSend_blind data size sourcePort destPort ip
  | udpReceive size port => exact .bind (udpReceive_blind size port) fun _ => pure_blind _
  | dhcpStart => exact dhcpStart_blind
  | dhcpTask => exact dhcpTask_blind
  | dhcpRelease => exact dhcpSendPacket_blind .release
  | downloadFile filename serverIp =>
    exact read_blind (fun _ => rfl) fun _ => .bind (.bind (udpListen_blind _ _) fun _ => pure_blind _) fun _ =>
      assign_blind (fun _ => rfl) fun _ => rfl
  | readFile size =>
    exact read_blind (fun _ => rfl) fun _ => .bind (tftpRead_blind _ _) fun _ =>
      assign_blind (fun _ => rfl) fun _ => rfl
  | abortDownload errorMessage => exact read_blind (fun _ => rfl) fun _ => sendTftpPacket_blind _ _ _
  | setOurMac mac => exact assign_blind (fun _ => rfl) fun _ => rfl
  | setOurIp ip => exact assign_blind (fun _ => rfl) fun _ => rfl
  | setOurNetmask netmask => exact assign_blind (fun _ => rfl) fun _ => rfl

/-- One operation after the other, until one does not return. -/
def execAll : List Op → Net Unit
  | [] => pure ()
  | op :: rest => do
    op.exec
    execAll rest

/-- No sequence of operations does. -/
theorem execAll_blind (ops : List Op) : Blind p k k' base c (execAll ops) := by
  induction ops with
  | nil => exact pure_blind _
  | cons op rest ih => exact .bind (exec_blind op) fun _ => ih

end MiniIp.Invariant
