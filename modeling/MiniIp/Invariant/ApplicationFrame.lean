import MiniIp.Invariant.ClientFrame
import MiniIp.Invariant.ClientParts

/-!
# Only two calls touch the application's memory

All other operations keep the application's connection and the bytes it has
received; and no operation takes an event back. What opens no UDP connection also
keeps the ports that are listened on: there `closed` may be any proposition,
elsewhere it is `False`.
-/

set_option autoImplicit false

namespace MiniIp.Invariant

open MiniIp.Source MiniIp.Library.Wp

/-- What the calls that are not the application's leave of it. -/
structure ApplicationFrame (closed : Prop) (s t : Stack) : Prop where
  application : t.application = s.application
  trace : s.trace <:+ t.trace
  listeners : closed → listeners t.udp = listeners s.udp

variable {arpKept closed : Prop}

namespace ApplicationFrame

variable {s t u : Stack}

theorem refl (s : Stack) : ApplicationFrame closed s s := ⟨rfl, List.suffix_rfl, fun _ => rfl⟩

theorem trans (h : ApplicationFrame closed s t) (h' : ApplicationFrame closed t u) :
    ApplicationFrame closed s u :=
  ⟨h'.application.trans h.application, h.trace.trans h'.trace,
    fun hc => (h'.listeners hc).trans (h.listeners hc)⟩

instance : Std.Refl (ApplicationFrame closed) := ⟨refl⟩

instance : IsTrans Stack (ApplicationFrame closed) := ⟨fun _ _ _ => trans⟩

theorem ofClient (h : ClientFrame False s t) : ApplicationFrame closed s t := by
  obtain ⟨new, htrace, _⟩ := h.trace
  exact ⟨h.application, ⟨new, htrace.symm⟩, fun _ => h.listeners⟩

theorem observe (event : Event) : ApplicationFrame closed s (s.observe event) :=
  ⟨rfl, List.suffix_cons _ _, fun _ => rfl⟩

end ApplicationFrame

/-- A computation that keeps the application's memory and the past. -/
abbrev KeepsApplication {α : Type} (closed : Prop) (x : Net α) : Prop :=
  Within (ApplicationFrame closed) (fun _ _ => True) x

theorem Spares.keepsApplication {α : Type} {x : Net α} (h : Spares False x) : KeepsApplication closed x :=
  h.mono (fun _ _ => ApplicationFrame.ofClient) fun _ _ _ => trivial

theorem Sends.keepsApplication {α : Type} {x : Net α} (h : Sends arpKept x) : KeepsApplication closed x :=
  h.spares.keepsApplication

theorem assign_keepsApplication {f : Stack → Stack}
    (h : ∀ s, (f s).application = s.application ∧ (f s).trace = s.trace)
    (hudp : closed → ∀ s, listeners (f s).udp = listeners s.udp) :
    KeepsApplication closed (modify f : Net Unit) := by
  intro s
  obtain ⟨happlication, htrace⟩ := h s
  exact ⟨happlication, htrace ▸ List.suffix_rfl, fun hc => hudp hc s⟩

theorem modifyDhcp_keepsApplication (f : Dhcp → Dhcp) : KeepsApplication closed (modifyDhcp f) :=
  assign_keepsApplication (fun _ => ⟨rfl, rfl⟩) fun _ _ => rfl

theorem emit_keepsApplication (event : Event) : KeepsApplication closed (emit event) :=
  .modify fun _ => .observe event

theorem random_keepsApplication : KeepsApplication closed random :=
  .bind .get fun _ => .bind (assign_keepsApplication (fun _ => ⟨rfl, rfl⟩) fun _ _ => rfl) fun _ => .pure _

theorem getTime_keepsApplication : KeepsApplication closed getTime := .bind .get fun _ => .pure _

theorem setDhcpState_keepsApplication (state : DhcpState) : KeepsApplication closed (setDhcpState state) :=
  .bind (modifyDhcp_keepsApplication _) fun _ => emit_keepsApplication _

theorem dhcpSendPacket_keepsApplication (type : DhcpPacketType) :
    KeepsApplication closed (dhcpSendPacket type) :=
  .bind allocateNetworkPacket_spares.keepsApplication fun _ => .bind .get fun _ =>
    .bind (modifyPacket_spares _ _).keepsApplication fun _ => .bind (emit_keepsApplication _)
    fun _ => (udpSendZeroCopy_sends _ _ _ _).keepsApplication

/-- Every part of the client. -/
theorem client_keepsApplication : ClientParts (fun _ => True) fun _ x => KeepsApplication closed x where
  toSequential := Within.sequential _
  read := by
    apply dhcpRead_of (Within.sequential _)
    · exact (udpReceiveZeroCopy_spares _).keepsApplication
    · exact fun packet => (getPacket_spares packet).keepsApplication
    · exact fun _ => assign_keepsApplication (fun _ => ⟨rfl, rfl⟩) fun _ _ => rfl
    · exact fun packet => (freeNetworkPacket_spares packet).keepsApplication
  assign := modifyDhcp_keepsApplication
  offer := emit_keepsApplication _
  ack := emit_keepsApplication _
  send := dhcpSendPacket_keepsApplication
  draw := random_keepsApplication
  enter _ _ := emit_keepsApplication _
  address _ := assign_keepsApplication (fun _ => ⟨rfl, rfl⟩) fun _ _ => rfl
  netmask _ := assign_keepsApplication (fun _ => ⟨rfl, rfl⟩) fun _ _ => rfl

/-- The client reads and sends, and opens nothing. -/
theorem dhcpTask_keepsApplication : KeepsApplication closed dhcpTask :=
  dhcpTask_of client_keepsApplication fun _ => trivial

theorem udpListen_keepsApplication (port : Port) (maxPacketCount : Int) (hopen : ¬ closed) :
    KeepsApplication closed (udpListen port maxPacketCount) := by
  have hassign : ∀ f : Stack → Stack, (∀ s, (f s).application = s.application ∧ (f s).trace = s.trace) →
      KeepsApplication closed (modify f : Net Unit) :=
    fun f hf => assign_keepsApplication hf fun hc => absurd hc hopen
  refine .bind .get fun s => ?_
  split
  · exact .throw fun _ => trivial
  · exact .bind (hassign _ fun _ => ⟨rfl, rfl⟩) fun _ => .bind (hassign _ fun _ => ⟨rfl, rfl⟩)
      fun _ => hassign _ fun _ => ⟨rfl, rfl⟩

theorem dhcpStart_keepsApplication (hopen : ¬ closed) : KeepsApplication closed dhcpStart :=
  .bind (setDhcpState_keepsApplication _) fun _ => .bind random_keepsApplication fun _ =>
    .bind getTime_keepsApplication fun _ => .bind (modifyDhcp_keepsApplication _) fun _ =>
    udpListen_keepsApplication _ _ hopen

/-- The two calls that write to the application's memory. -/
def Op.WritesApplication : Op → Prop
  | .downloadFile .. | .readFile _ => True
  | _ => False

/-- The other calls that open a connection. -/
def Op.OpensConnection : Op → Prop
  | .udpListen .. | .dhcpStart => True
  | _ => False

/-- Every operation, under the two conditions on it. -/
theorem exec_keepsApplication {op : Op} (h : ¬ Op.WritesApplication op)
    (hopen : Op.OpensConnection op → ¬ closed) :
    KeepsApplication closed op.exec := by
  cases op with
  | receiveDone slot status bytes => exact (gmacReceiveDone_spares slot status bytes).keepsApplication
  | transmitDone slot => exact assign_keepsApplication (fun _ => ⟨rfl, rfl⟩) fun _ _ => rfl
  | transmitStatus tsr => exact assign_keepsApplication (fun _ => ⟨rfl, rfl⟩) fun _ _ => rfl
  | tick now => exact assign_keepsApplication (fun _ => ⟨rfl, rfl⟩) fun _ _ => rfl
  | receive => exact .bind receivePacket_spares.keepsApplication fun _ => .pure _
  | arpTask => exact arpTask_spares.keepsApplication
  | sendToIp bytes ip => exact (sendToIp_spares bytes ip).keepsApplication
  | udpListen port maxPacketCount => exact udpListen_keepsApplication port maxPacketCount (hopen trivial)
  | udpSend data size sourcePort destPort ip => exact (udpSend_spares _ _ _ _ _).keepsApplication
  | udpReceive size port => exact .bind (udpReceive_spares size port).keepsApplication fun _ => .pure _
  | dhcpStart => exact dhcpStart_keepsApplication (hopen trivial)
  | dhcpTask => exact dhcpTask_keepsApplication
  | dhcpRelease => exact dhcpSendPacket_keepsApplication .release
  | downloadFile filename serverIp => exact absurd trivial h
  | readFile size => exact absurd trivial h
  | abortDownload errorMessage => exact .bind .get fun _ => (sendTftpPacket_sends _ _ _).keepsApplication
  | setOurMac mac => exact assign_keepsApplication (fun _ => ⟨rfl, rfl⟩) fun _ _ => rfl
  | setOurIp ip => exact assign_keepsApplication (fun _ => ⟨rfl, rfl⟩) fun _ _ => rfl
  | setOurNetmask netmask => exact assign_keepsApplication (fun _ => ⟨rfl, rfl⟩) fun _ _ => rfl

end MiniIp.Invariant
