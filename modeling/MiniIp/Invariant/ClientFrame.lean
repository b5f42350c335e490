import MiniIp.Invariant.Frame

/-!
# What everything but the clients leaves alone

Receiving, the ARP task and the UDP calls assign nothing that belongs to DHCP,
to the application or to the configuration of the host. They open no UDP
connection, and a packet that is in a UDP queue afterwards was there before or is
queued by an event of the trace. What neither takes a frame from the receive ring nor
puts one there leaves the ring alone too: `ringKept` says so, and elsewhere it is `False`.
-/

set_option autoImplicit false

namespace MiniIp.Invariant

open MiniIp.Source MiniIp.Library.Wp

def NotDhcp : Event → Prop
  | .dhcpSent .. | .dhcpState .. | .dhcpOffer | .dhcpAck => False
  | .window .. | .freed .. | .macSend .. | .gmacSend .. | .arpSend .. | .arpEvicted .. |
    .arpMapped .. | .udpSend .. | .udpQueued .. | .udpTaken .. => True

theorem Sending.notDhcp {event : Event} (h : Sending event) : NotDhcp event := by
  cases event <;> trivial

def configured (s : Stack) :=
  (s.ourMac, s.ourIp, s.ourNetmask, s.dhcp, s.options, s.application, s.time, s.entropy, s.gmac.tsr)

/-- The receive descriptors, as the hardware and the driver have left them. -/
def receiveRing (s : Stack) := (s.gmac.rxDescriptors, s.gmac.rxIndex)

/-- The open connections, with their ports and limits. -/
def listeners (u : Udp) :=
  (u.freeConnections, u.usedConnections, fun c => (u.connections c).port,
    fun c => (u.connections c).maxPacketCount)

/-- A packet that is in a queue of `t` was in that queue of `s` or has been queued since. -/
def QueuedBy (new : List Event) (s t : Stack) : Prop :=
  ∀ c, ∀ p ∈ (t.udp.connections c).packetQueue, p ∈ (s.udp.connections c).packetQueue ∨
    .udpQueued (s.udp.connections c).port p ∈ new

/-- What has happened between two states in which no client has run. -/
structure ClientFrame (ringKept : Prop) (s t : Stack) : Prop where
  configured : configured t = configured s
  ring : ringKept → receiveRing t = receiveRing s
  listeners : listeners t.udp = listeners s.udp
  trace : ∃ new, t.trace = new ++ s.trace ∧ (∀ event ∈ new, NotDhcp event) ∧ QueuedBy new s t

/-- A computation that spares the clients. -/
abbrev Spares {α : Type} (ringKept : Prop) (x : Net α) : Prop := Within (ClientFrame ringKept) ErrorReported x

variable {arpKept ringKept : Prop} {s t u : Stack}

theorem listeners_used (h : listeners t.udp = listeners s.udp) :
    t.udp.usedConnections = s.udp.usedConnections := congrArg (·.2.1) h

theorem listeners_port (h : listeners t.udp = listeners s.udp) (c : UdpConnectionId) :
    (t.udp.connections c).port = (s.udp.connections c).port := congrFun (congrArg (·.2.2.1) h) c

theorem listeners_max (h : listeners t.udp = listeners s.udp) (c : UdpConnectionId) :
    (t.udp.connections c).maxPacketCount = (s.udp.connections c).maxPacketCount :=
  congrFun (congrArg (·.2.2.2) h) c

theorem listeners_setConnection {c : UdpConnectionId} {v : UdpConnection}
    (hport : v.port = (s.udp.connections c).port)
    (hmax : v.maxPacketCount = (s.udp.connections c).maxPacketCount) :
    listeners (s.setConnection c v).udp = listeners s.udp := by
  have hports : (fun a => ((s.setConnection c v).udp.connections a).port) =
      fun a => (s.udp.connections a).port := by
    funext a
    by_cases hac : a = c
    · simp [hac, hport]
    · simp [Function.update_of_ne hac]
  have hlimits : (fun a => ((s.setConnection c v).udp.connections a).maxPacketCount) =
      fun a => (s.udp.connections a).maxPacketCount := by
    funext a
    by_cases hac : a = c
    · simp [hac, hmax]
    · simp [Function.update_of_ne hac]
  simp only [listeners, hports, hlimits]
  rfl

namespace ClientFrame

theorem refl (s : Stack) : ClientFrame ringKept s s :=
  ⟨rfl, fun _ => rfl, rfl, [], rfl, by simp, fun _ _ hp => .inl hp⟩

theorem trans (h : ClientFrame ringKept s t) (h' : ClientFrame ringKept t u) : ClientFrame ringKept s u := by
  obtain ⟨new, htrace, hnew, hqueued⟩ := h.trace
  obtain ⟨new', htrace', hnew', hqueued'⟩ := h'.trace
  refine ⟨h'.configured.trans h.configured, fun hr => (h'.ring hr).trans (h.ring hr), h'.listeners.trans h.listeners, new' ++ new,
    by simp [htrace, htrace'], ?_, ?_⟩
  · intro event he
    rcases List.mem_append.mp he with he | he
    · exact hnew' event he
    · exact hnew event he
  · intro c p hp
    rcases hqueued' c p hp with hold | hlate
    · exact (hqueued c p hold).imp_right (List.mem_append_right _)
    · rw [listeners_port h.listeners c] at hlate
      exact .inr (List.mem_append_left _ hlate)

instance : Std.Refl (ClientFrame ringKept) := ⟨refl⟩

instance : IsTrans Stack (ClientFrame ringKept) := ⟨fun _ _ _ => trans⟩

theorem ofSend (h : SendFrame arpKept s t) : ClientFrame ringKept s t := by
  obtain ⟨new, htrace, hnew⟩ := h.trace
  have hudp := h.udp
  refine ⟨?_, fun _ => ?_, by rw [hudp], new, htrace, fun event he => (hnew event he).notDhcp, ?_⟩
  · simp [Invariant.configured, h.ourMac, h.ourIp, h.ourNetmask, h.dhcp, h.options, h.application, h.time,
      h.entropy, h.tsr]
  · rw [Invariant.receiveRing, Invariant.receiveRing, h.rxDescriptors, h.rxIndex]
  · intro c p hp
    rw [hudp] at hp
    exact .inl hp

theorem observe {event : Event} (h : NotDhcp event) : ClientFrame ringKept s (s.observe event) :=
  ⟨rfl, fun _ => rfl, rfl, [event], rfl, by simpa using h, fun _ _ hp => .inl hp⟩

theorem assign (h : Invariant.configured t = Invariant.configured s) (hudp : t.udp = s.udp)
    (htrace : t.trace = s.trace) (hring : ringKept → Invariant.receiveRing t = Invariant.receiveRing s) :
    ClientFrame ringKept s t :=
  ⟨h, hring, by rw [hudp], [], htrace, by simp, fun c p hp => .inl (hudp ▸ hp)⟩

/-- A connection loses packets from its queue. -/
theorem dropped {c : UdpConnectionId} {v : UdpConnection}
    (hport : v.port = (s.udp.connections c).port)
    (hmax : v.maxPacketCount = (s.udp.connections c).maxPacketCount)
    (hqueue : ∀ p ∈ v.packetQueue, p ∈ (s.udp.connections c).packetQueue) :
    ClientFrame ringKept s (s.setConnection c v) := by
  refine ⟨rfl, fun _ => rfl, listeners_setConnection hport hmax, [], rfl, by simp, fun a p hp => .inl ?_⟩
  by_cases hac : a = c
  · rw [hac] at hp ⊢
    exact hqueue p (by simpa using hp)
  · simpa [Function.update_of_ne hac] using hp

/-- A packet is put at the end of a queue, and the event says so. -/
theorem queued {c : UdpConnectionId} {v : UdpConnection} {p : PacketId}
    (hport : v.port = (s.udp.connections c).port)
    (hmax : v.maxPacketCount = (s.udp.connections c).maxPacketCount)
    (hqueue : v.packetQueue = (s.udp.connections c).packetQueue ++ [p]) {event : Event}
    (hevent : NotDhcp event) :
    ClientFrame ringKept s (((s.setConnection c v).observe event).observe (.udpQueued v.port p)) := by
  refine ⟨rfl, fun _ => rfl, listeners_setConnection hport hmax, [.udpQueued v.port p, event], rfl, ?_,
    fun a q hq => ?_⟩
  · simpa [NotDhcp] using hevent
  · by_cases hac : a = c
    · subst hac
      simp only [Stack.observe_udp, Stack.setConnection_udp_connections, Function.update_self, hqueue,
        List.mem_append, List.mem_singleton] at hq
      rcases hq with hold | rfl
      · exact .inl hold
      · rw [← hport]
        exact .inr List.mem_cons_self
    · simp only [Stack.observe_udp, Stack.setConnection_udp_connections,
        Function.update_of_ne hac] at hq
      exact .inl hq

theorem application (h : ClientFrame ringKept s t) : t.application = s.application :=
  congrArg (·.2.2.2.2.2.1) h.configured

theorem dhcp (h : ClientFrame ringKept s t) : t.dhcp = s.dhcp := congrArg (·.2.2.2.1) h.configured

theorem options (h : ClientFrame ringKept s t) : t.options = s.options := congrArg (·.2.2.2.2.1) h.configured

theorem tsr (h : ClientFrame ringKept s t) : t.gmac.tsr = s.gmac.tsr :=
  congrArg (·.2.2.2.2.2.2.2.2) h.configured

theorem ourMac (h : ClientFrame ringKept s t) : t.ourMac = s.ourMac := congrArg (·.1) h.configured

theorem ourIp (h : ClientFrame ringKept s t) : t.ourIp = s.ourIp := congrArg (·.2.1) h.configured

theorem ourNetmask (h : ClientFrame ringKept s t) : t.ourNetmask = s.ourNetmask :=
  congrArg (·.2.2.1) h.configured

end ClientFrame

theorem Sends.spares {α : Type} {x : Net α} (h : Sends arpKept x) : Spares ringKept x :=
  h.mono (fun _ _ => ClientFrame.ofSend) fun _ _ herror => herror

theorem emit_spares {event : Event} (h : NotDhcp event) : Spares ringKept (emit event) :=
  .modify fun _ => .observe h

theorem getPacket_spares (packet : PacketId) : Spares ringKept (getPacket packet) :=
  (getPacket_delivers packet : Delivers True _).sends.spares

theorem modifyPacket_spares (packet : PacketId) (f : NetworkPacket → NetworkPacket) :
    Spares ringKept (modifyPacket packet f) := .modify fun _ => .assign rfl rfl rfl fun _ => rfl

theorem modifyEntry_spares (entry : ArpEntryId) (f : ArpEntry → ArpEntry) :
    Spares ringKept (modifyEntry entry f) := .modify fun _ => .assign rfl rfl rfl fun _ => rfl

theorem freeNetworkPacket_spares (packet : PacketId) : Spares ringKept (freeNetworkPacket packet) :=
  (freeNetworkPacket_delivers packet : Delivers True _).sends.spares

theorem allocateNetworkPacket_spares : Spares ringKept allocateNetworkPacket :=
  (allocateNetworkPacket_delivers : Delivers True _).sends.spares

theorem recordWindow_spares (site : Site) (packet : PacketId) (headerSize : Int) :
    Spares ringKept (recordWindow site packet headerSize) :=
  (recordWindow_delivers site packet headerSize : Delivers True _).sends.spares

theorem macSend_spares (packet : PacketId) (mac : Mac) (etherType : UInt16) :
    Spares ringKept (macSend packet mac etherType) := (macSend_delivers packet mac etherType : Delivers True _).sends.spares

theorem sendArpPacket_spares (mac : Mac) (ip : Ip) (type : ArpType) : Spares ringKept (sendArpPacket mac ip type) :=
  (sendArpPacket_delivers mac ip type : Delivers True _).sends.spares

theorem sendPacketsOnEntry_spares (entry : ArpEntryId) (packets : List PacketId) :
    Spares ringKept (sendPacketsOnEntry entry packets) := by
  induction packets with
  | nil => exact .pure _
  | cons packet rest ih =>
    exact .bind (modifyEntry_spares _ _) fun _ => .bind .get fun _ =>
      .bind (macSend_spares _ _ _) fun _ => ih

theorem updateArpMapping_spares (ip : Ip) (mac : Mac) (onlyIfNotValid : Bool) :
    Spares ringKept (updateArpMapping ip mac onlyIfNotValid) := by
  refine .bind (findArpEntry_delivers ip : Delivers True _).sends.spares fun found => ?_
  cases found with
  | none => exact .pure _
  | some entry =>
    exact .bind .get fun _ => .ite (.pure _) (.bind (getTime_delivers : Delivers True _).sends.spares fun _ =>
      .bind (emit_spares trivial) fun _ => .bind (modifyEntry_spares _ _) fun _ => .bind .get fun _ =>
      sendPacketsOnEntry_spares _ _)

theorem handleArp_spares (packet : PacketId) : Spares ringKept (handleArp packet) := by
  refine .bind (getPacket_spares _) fun _ => .ite (freeNetworkPacket_spares _) (.bind (recordWindow_spares _ _ _)
    fun _ => .ite (freeNetworkPacket_spares _) (.bind .get fun _ => ?_))
  have hfree : Spares ringKept _ := freeNetworkPacket_spares packet
  refine .ite (.ite ?_ hfree) (.ite (.ite ?_ hfree) hfree)
  · exact .bind (updateArpMapping_spares _ _ _) fun _ => hfree
  · exact .bind (sendArpPacket_spares _ _ _) fun _ => hfree

theorem arpEntryTask_spares (entry : ArpEntryId) : Spares ringKept (arpEntryTask entry) := by
  have hfree : Spares ringKept _ := (freeEntry_delivers entry).sends.spares
  refine .bind .get fun _ => .bind (getTime_delivers : Delivers True _).sends.spares fun _ =>
    .ite (.ite hfree (.pure _)) (.ite (.ite ?_ hfree) (.pure _))
  exact .bind (sendArpPacket_spares _ _ _) fun _ => modifyEntry_spares _ _

theorem arpEntriesTask_spares (entries : List ArpEntryId) : Spares ringKept (arpEntriesTask entries) := by
  induction entries with
  | nil => exact .pure _
  | cons entry rest ih => exact .bind (arpEntryTask_spares entry) fun _ => ih

/-- The poll of the ARP table, which may free entries and send requests. -/
theorem arpTask_spares : Spares ringKept arpTask := .bind .get fun _ => arpEntriesTask_spares _

theorem udpReceiveZeroCopy_spares (port : Port) : Spares ringKept (udpReceiveZeroCopy port) := by
  intro s
  unfold udpReceiveZeroCopy
  simp only [wp_bind, wp_get]
  split
  · exact .refl s
  · next c _ =>
    simp only [wp_bind, wp_get, wp_ite, wp_pure]
    split
    · exact .refl s
    · split
      · exact ⟨.refl s, errorReported_of_ne (by decide) s⟩
      · next p rest hqueue =>
        simp only [wp_bind, wp_modifyConnection, wp_getPacket, wp_emit, wp_pure]
        have hdropped : ClientFrame ringKept s (s.setConnection c { s.udp.connections c with
            packetQueue := rest, packetCount := (s.udp.connections c).packetCount - 1 }) := by
          apply ClientFrame.dropped
          · rfl
          · rfl
          · intro q hq
            rw [hqueue]
            exact List.mem_cons_of_mem _ hq
        exact hdropped.trans (.observe trivial)

theorem udpReceive_spares (size : Int) (port : Port) : Spares ringKept (udpReceive size port) := by
  refine .bind (udpReceiveZeroCopy_spares port) fun taken => ?_
  cases taken with
  | none => exact .pure _
  | some packet =>
    exact .bind (getPacket_spares _) fun _ => .bind (freeNetworkPacket_spares _) fun _ => .pure _

theorem udpLimitQueue_spares (connection : UdpConnectionId) : Spares ringKept (udpLimitQueue connection) := by
  intro s
  unfold udpLimitQueue
  simp only [wp_bind, wp_get, wp_ite, wp_pure]
  split
  · split
    · exact ⟨.refl s, errorReported_of_ne (by decide) s⟩
    · next old rest hqueue =>
      simp only [wp_bind, wp_modifyConnection]
      have hdropped : ClientFrame ringKept s (s.setConnection connection { s.udp.connections connection with
          packetQueue := rest }) := by
        apply ClientFrame.dropped
        · rfl
        · rfl
        · intro q hq
          rw [hqueue]
          exact List.mem_cons_of_mem _ hq
      have hfree : Spares ringKept _ := freeNetworkPacket_spares old
      apply wp_mono (hfree (s.setConnection connection { s.udp.connections connection with packetQueue := rest }))
      · intro _ t ht
        apply (hdropped.trans ht).trans
        apply ClientFrame.dropped
        · rfl
        · rfl
        · exact fun q hq => hq
      · intro halt t ht
        exact ⟨hdropped.trans ht.1, ht.2⟩
  · exact .refl s

theorem udpQueuePacket_spares (connection : UdpConnectionId) (packet : PacketId) :
    Spares ringKept (udpQueuePacket connection packet) := by
  intro s
  unfold udpQueuePacket
  simp only [wp_bind, wp_modifyConnection, wp_recordWindow, wp_emit, wp_get]
  let v : UdpConnection := { s.udp.connections connection with
    packetQueue := (s.udp.connections connection).packetQueue ++ [packet]
    packetCount := (s.udp.connections connection).packetCount + 1 }
  let window := Event.window .udpQueue (s.packets packet).index (s.packets packet).length 0
  have happended : ClientFrame ringKept s (((s.setConnection connection v).observe window).observe
      (.udpQueued v.port packet)) := by
    apply ClientFrame.queued (p := packet)
    · rfl
    · rfl
    · rfl
    · trivial
  have hlimit : Spares ringKept _ := udpLimitQueue_spares connection
  simp only [Stack.observe_udp, Stack.setConnection_udp_connections, Function.update_self]
  apply wp_mono (hlimit (((s.setConnection connection v).observe window).observe (.udpQueued v.port packet)))
  · intro _ t ht
    exact happended.trans ht
  · intro halt t ht
    exact ⟨happended.trans ht.1, ht.2⟩

theorem handleUdp_spares (packet : PacketId) : Spares ringKept (handleUdp packet) := by
  refine .bind (getPacket_spares _) fun _ => .ite (freeNetworkPacket_spares _)
    (.bind (recordWindow_spares _ _ _) fun _ => .bind (modifyPacket_spares _ _) fun _ =>
      .bind .get fun s => ?_)
  split
  · exact freeNetworkPacket_spares _
  · exact udpQueuePacket_spares _ _

theorem handleIcmp_spares (packet : PacketId) : Spares ringKept (handleIcmp packet) :=
  .bind (getPacket_spares _) fun _ => .ite (freeNetworkPacket_spares _)
    (.bind (recordWindow_spares _ _ _) fun _ => .ite (.bind (modifyPacket_spares _ _) fun _ =>
      (ipSend_delivers _ _ _).sends.spares) (freeNetworkPacket_spares _))

theorem handleIp_spares (packet : PacketId) : Spares ringKept (handleIp packet) := by
  have hfree : Spares ringKept _ := freeNetworkPacket_spares packet
  refine .bind (getPacket_spares _) fun _ => .ite hfree (.bind (recordWindow_spares _ _ _) fun _ =>
    .bind (modifyPacket_spares _ _) fun _ => .ite hfree (.bind (modifyPacket_spares _ _) fun _ =>
      .bind .get fun _ => .ite hfree (.ite (handleUdp_spares _) (.ite (handleIcmp_spares _) hfree))))

/-- A received frame reaches the clients through the UDP queues only. -/
theorem handleMac_spares (packet : PacketId) : Spares ringKept (handleMac packet) := by
  have hfree : Spares ringKept _ := freeNetworkPacket_spares packet
  exact .bind (getPacket_spares _) fun _ => .ite hfree (.bind (recordWindow_spares _ _ _) fun _ =>
    .bind (modifyPacket_spares _ _) fun _ => .ite (handleArp_spares _)
      (.ite (handleIp_spares _) hfree))

theorem gmacReceive_spares : Spares False gmacReceive := by
  have hassign : ∀ f : Stack → Stack, (∀ s, configured (f s) = configured s ∧ (f s).udp = s.udp ∧
      (f s).trace = s.trace) → Spares False (modify f : Net Unit) :=
    fun f hf => .modify fun s => .assign (hf s).1 (hf s).2.1 (hf s).2.2 False.elim
  refine .bind .get fun _ => .bind .get fun _ => .ite (.pure _) (.ite
    (.bind (hassign _ fun _ => ⟨rfl, rfl, rfl⟩) fun _ => .pure _) (.bind .get fun s => ?_))
  split
  · exact .throw (errorReported_of_ne (by decide))
  · exact .bind (modifyPacket_spares _ _) fun _ => .bind allocateNetworkPacket_spares fun _ =>
      .bind (hassign _ fun _ => ⟨rfl, rfl, rfl⟩) fun _ => .bind (hassign _ fun _ => ⟨rfl, rfl, rfl⟩)
      fun _ => .bind (hassign _ fun _ => ⟨rfl, rfl, rfl⟩) fun _ => .pure _

/-- The ring loses a frame here. -/
theorem receivePacket_spares : Spares False receivePacket := by
  refine .bind gmacReceive_spares fun received => ?_
  cases received with
  | none => exact .pure _
  | some packet => exact .bind (handleMac_spares packet) fun _ => .pure _

theorem gmacReceiveDone_spares (slot : Fin 32) (status : RxStatus) (bytes : Memory) :
    Spares False (gmacReceiveDone slot status bytes) := by
  refine .bind .get fun _ => .ite ?_ (.pure _)
  refine .bind .get fun s => ?_
  split
  · exact .pure _
  · exact .bind (modifyPacket_spares _ _) fun _ => .modify fun _ => .assign rfl rfl rfl False.elim

theorem sendToIp_spares (bytes : List UInt8) (ip : Ip) : Spares ringKept (sendToIp bytes ip) :=
  .bind allocateNetworkPacket_spares fun _ => .bind (modifyPacket_spares _ _) fun _ =>
    (arpSend_delivers _ _).sends.spares

theorem udpSend_spares (data : Nat → UInt8) (size : Int) (sourcePort destPort : Port) (ip : Ip) :
    Spares ringKept (udpSend data size sourcePort destPort ip) :=
  .bind allocateNetworkPacket_spares fun _ => .bind (modifyPacket_spares _ _) fun _ =>
    (udpSendZeroCopy_sends _ _ _ _).spares

theorem random_spares : Spares ringKept random :=
  .bind .get fun _ => .bind (.modify fun _ => .assign rfl rfl rfl fun _ => rfl) fun _ => .pure _

theorem tftpSendOnTimeout_spares (connection : TftpConnection) {send : Net Unit} (hsend : Spares ringKept send) :
    Spares ringKept (tftpSendOnTimeout connection send) := by
  have htime : Spares ringKept getTime := (getTime_delivers : Delivers True _).sends.spares
  exact .bind htime fun _ => .ite (.bind hsend fun _ => .bind random_spares fun _ =>
    .bind htime fun _ => .pure _) (.pure _)

theorem sendTftpPacket_spares (connection : TftpConnection) (destPort : Port) (bytes : List UInt8) :
    Spares ringKept (sendTftpPacket connection destPort bytes) := (sendTftpPacket_sends _ _ _).spares

theorem tryReadOack_spares (connection : TftpConnection) : Spares ringKept (tryReadOack connection) := by
  refine .bind (udpReceiveZeroCopy_spares _) fun taken => ?_
  cases taken with
  | none => exact .pure _
  | some packet =>
    refine .bind (getPacket_spares _) fun p => .ite (.pure _)
      (.bind (freeNetworkPacket_spares _) fun _ => ?_)
    split
    · exact .pure _
    · exact .pure _

theorem tryReadData_spares (connection : TftpConnection) (size : Int) :
    Spares ringKept (tryReadData connection size) := by
  refine .bind (udpReceiveZeroCopy_spares _) fun taken => ?_
  cases taken with
  | none => exact .pure _
  | some packet =>
    have hanswer : ∀ destPort bytes (a : TftpResult × TftpConnection), Spares ringKept (do
        sendTftpPacket connection destPort bytes
        freeNetworkPacket packet
        return a) := fun _ _ _ =>
      .bind (sendTftpPacket_spares _ _ _) fun _ => .bind (freeNetworkPacket_spares _) fun _ => .pure _
    exact .bind (getPacket_spares _) fun _ => .ite (hanswer _ _ _) (.ite (hanswer _ _ _)
      (.ite (.bind (freeNetworkPacket_spares _) fun _ => .pure _)
        (.bind (freeNetworkPacket_spares _) fun _ => .pure _)))

/-- The state of the download is in the caller's hands, and no global. -/
theorem tftpRead_spares (connection : TftpConnection) (size : Int) :
    Spares ringKept (tftpRead connection size) := by
  unfold tftpRead
  split
  · refine .bind (.bind (tftpSendOnTimeout_spares _ (sendTftpPacket_spares _ _ _)) fun _ =>
      .bind (tryReadOack_spares _) fun _ => .pure _) fun _ => .pure _
  · refine .bind (tftpSendOnTimeout_spares _ (sendTftpPacket_spares _ _ _)) fun _ =>
      .bind (tryReadData_spares _ _) fun out => ?_
    exact .ite (.ite (.bind (sendTftpPacket_spares _ _ _) fun _ => .pure _) (.pure _)) (.pure _)
  · exact .pure _
  · exact .pure _

end MiniIp.Invariant
