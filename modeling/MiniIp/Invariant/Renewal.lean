import MiniIp.Invariant.Attempts
import MiniIp.Invariant.Poll

/-!
# The renewal of a lease and the client's queue

Nobody reads the queue of port 68 while the lease is bound. The first call of `dhcp_task` in `DHCP_RENEWING` sends a
RENEW and then takes what has been waiting. What the later calls find has come after that RENEW. This takes the queue
of port 68 to hold one packet, as `dhcp_start` opens it.
-/

set_option autoImplicit false

namespace MiniIp.Invariant

open MiniIp.Source MiniIp.Library.Runs MiniIp.Library.Wp

/-- A RENEW has been sent since the client has begun to renew. -/
def RenewSent (trace : List Event) : Prop :=
  ∃ newer older, trace = newer ++ .dhcpSent .renew :: older ∧ .dhcpState .renewing ∉ newer

/-- Since then, and after a RENEW, the packet has been put in the client's queue. -/
def QueuedAfterRenew (p : PacketId) (trace : List Event) : Prop :=
  ∃ newer older, trace = newer ++ .udpQueued dhcpClientPort p :: older ∧ .dhcpState .renewing ∉ newer ∧
    RenewSent older

/-- The client does not begin to renew between the two states. -/
def NoRenewal (s t : Stack) : Prop := ∃ new, t.trace = new ++ s.trace ∧ .dhcpState .renewing ∉ new

/-- The packets in the queue that the client reads. -/
def clientQueue (s : Stack) : List PacketId :=
  ((findConnection s.udp dhcpClientPort).map fun c => (s.udp.connections c).packetQueue).getD []

/-- The queues of the client's port hold one packet. -/
def SingleSlot (u : Udp) : Prop :=
  ∀ c ∈ u.usedConnections, (u.connections c).port = dhcpClientPort → (u.connections c).maxPacketCount ≤ 1

/-- Nobody opens the client's port for more than the client does (dhcp.c:132). -/
def Op.LeavesClientPort : Op → Prop
  | .udpListen port maxPacketCount => port = dhcpClientPort → maxPacketCount ≤ 1
  | _ => True

variable {W : Prop} {U : QueueContent} {limit : ℕ} {held : List PacketId} {s t u : Stack} {p : PacketId} {op : Op}
  {trace new : List Event} {c : Client} {ourMac : Mac} {now : Time} {head : Option NetworkPacket}

theorem RenewSent.later (h : RenewSent trace) (hnew : .dhcpState .renewing ∉ new) : RenewSent (new ++ trace) := by
  obtain ⟨newer, older, rfl, hnewer⟩ := h
  refine ⟨new ++ newer, older, (List.append_assoc _ _ _).symm, ?_⟩
  rw [List.mem_append, not_or]
  exact ⟨hnew, hnewer⟩

theorem QueuedAfterRenew.later (h : QueuedAfterRenew p trace) (hnew : .dhcpState .renewing ∉ new) :
    QueuedAfterRenew p (new ++ trace) := by
  obtain ⟨newer, older, rfl, hnewer, hsent⟩ := h
  refine ⟨new ++ newer, older, (List.append_assoc _ _ _).symm, ?_, hsent⟩
  rw [List.mem_append, not_or]
  exact ⟨hnew, hnewer⟩

theorem QueuedAfterRenew.sent (h : QueuedAfterRenew p trace) : RenewSent trace := by
  obtain ⟨newer, older, rfl, hnewer, hsent⟩ := h
  have hlast : Event.dhcpState .renewing ∉ newer ++ [.udpQueued dhcpClientPort p] := by
    rw [List.mem_append, not_or]
    exact ⟨hnewer, by simp⟩
  have hlater := hsent.later hlast
  rwa [List.append_assoc] at hlater

/-- What is queued after a RENEW. -/
theorem RenewSent.queued (h : RenewSent trace) (hnew : .dhcpState .renewing ∉ new)
    (hqueued : .udpQueued dhcpClientPort p ∈ new) : QueuedAfterRenew p (new ++ trace) := by
  obtain ⟨newer, older, rfl⟩ := List.append_of_mem hqueued
  rw [List.mem_append, List.mem_cons, not_or, not_or] at hnew
  refine ⟨newer, older ++ trace, by simp, hnew.1, h.later hnew.2.2⟩

/-- No RENEW comes from elsewhere. -/
theorem not_renewSent_append (h : ¬ RenewSent trace) (hnew : .dhcpSent .renew ∉ new) : ¬ RenewSent (new ++ trace) := by
  rintro ⟨newer, older, heq, hnewer⟩
  rcases List.append_eq_append_iff.mp heq with ⟨rest, rfl, htrace⟩ | ⟨rest, rfl, hrest⟩
  · apply h
    refine ⟨rest, older, htrace, ?_⟩
    intro hmem
    exact hnewer (List.mem_append_right _ hmem)
  · cases rest with
    | nil =>
      rw [List.nil_append] at hrest
      exact h ⟨[], older, hrest.symm, List.not_mem_nil⟩
    | cons first rest =>
      rw [List.cons_append, List.cons.injEq] at hrest
      obtain ⟨rfl, _⟩ := hrest
      exact hnew (List.mem_append_right _ List.mem_cons_self)

/-- The client has just begun to renew. -/
theorem not_renewSent_begun (trace : List Event) : ¬ RenewSent (.dhcpState .renewing :: trace) := by
  rintro ⟨newer, older, heq, hnewer⟩
  cases newer with
  | nil => cases heq
  | cons first rest =>
    rw [List.cons_append, List.cons.injEq] at heq
    obtain ⟨rfl, _⟩ := heq
    exact hnewer List.mem_cons_self

theorem mem_clientQueue : p ∈ clientQueue s ↔
    ∃ c, findConnection s.udp dhcpClientPort = some c ∧ p ∈ (s.udp.connections c).packetQueue := by
  unfold clientQueue
  cases findConnection s.udp dhcpClientPort with
  | none => simp
  | some c => simp

theorem clientQueue_congr (hudp : t.udp = s.udp) : clientQueue t = clientQueue s := by
  rw [clientQueue, clientQueue, hudp]

theorem clientQueue_head : (clientQueue s).head? = (queueHead s dhcpClientPort).map Prod.snd := by
  unfold clientQueue queueHead
  cases findConnection s.udp dhcpClientPort with
  | none => rfl
  | some c => simp [Function.comp_def]

theorem singleSlot_listeners (h : SingleSlot s.udp) (hlisteners : listeners t.udp = listeners s.udp) :
    SingleSlot t.udp := by
  intro c hc hport
  rw [listeners_used hlisteners] at hc
  rw [listeners_port hlisteners] at hport
  rw [listeners_max hlisteners]
  exact h c hc hport

/-- The client takes the only packet. -/
theorem clientQueue_took (hudp : UdpTable limit s.udp) (hsingle : SingleSlot s.udp) (h : Took s t dhcpClientPort) :
    clientQueue t = [] := by
  have htook := h.udp
  cases hhead : queueHead s dhcpClientPort with
  | none =>
    rw [hhead] at htook
    rw [clientQueue_congr htook, ← List.head?_eq_none_iff, clientQueue_head, hhead]
    rfl
  | some found =>
    obtain ⟨c, p⟩ := found
    rw [hhead] at htook
    obtain ⟨hused, hport, hcons⟩ := queueHead_some hhead
    have hbounded := hudp.bounded c hused
    have hlimit := hsingle c hused hport
    rw [hcons, List.length_cons] at hbounded
    have hnil : (s.udp.connections c).packetQueue.tail = [] := List.eq_nil_of_length_eq_zero (by omega)
    apply List.eq_nil_iff_forall_not_mem.mpr
    intro q hq
    obtain ⟨c', hfound, hq⟩ := mem_clientQueue.mp hq
    have htaken : t.udp = (dequeued s dhcpClientPort c p).udp := htook
    have hlisteners : listeners (dequeued s dhcpClientPort c p).udp = listeners s.udp :=
      listeners_setConnection rfl rfl
    rw [htaken, findConnection_listeners hlisteners] at hfound
    rw [htaken] at hq
    obtain rfl := queueHead_client hfound hhead
    simp [dequeued, hnil] at hq

/-- What the other calls do to the client's queue and to the past. -/
structure Between (s t : Stack) : Prop where
  trace : ∃ new, t.trace = new ++ s.trace ∧ .dhcpState .renewing ∉ new ∧ .dhcpSent .renew ∉ new ∧
    ∀ p ∈ clientQueue t, p ∈ clientQueue s ∨ .udpQueued dhcpClientPort p ∈ new
  single : SingleSlot s.udp → SingleSlot t.udp

theorem Between.of_same (hudp : t.udp = s.udp) (htrace : t.trace = s.trace) : Between s t := by
  constructor
  · refine ⟨[], htrace, List.not_mem_nil, List.not_mem_nil, ?_⟩
    intro p hp
    rw [clientQueue_congr hudp] at hp
    exact .inl hp
  · intro hsingle
    rw [hudp]
    exact hsingle

theorem Between.of_client (h : ClientFrame False s t) : Between s t := by
  obtain ⟨new, htrace, hnew, hqueued⟩ := h.trace
  constructor
  · refine ⟨new, htrace, hnew _, hnew _, ?_⟩
    intro p hp
    obtain ⟨c, hfound, hp⟩ := mem_clientQueue.mp hp
    rw [findConnection_listeners h.listeners] at hfound
    rcases hqueued c p hp with hold | hlate
    · exact .inl (mem_clientQueue.mpr ⟨c, hfound, hold⟩)
    · rw [(findConnection_mem hfound).2] at hlate
      exact .inr hlate
  · intro hsingle
    exact singleSlot_listeners hsingle h.listeners

theorem Between.of_release (h : DhcpSendFrame .release s t) : Between s t := by
  obtain ⟨new, htrace, hnew⟩ := h.trace
  have hudp : t.udp = s.udp := congrArg (·.1) h.unsent
  constructor
  · refine ⟨new, htrace, ?_, ?_, ?_⟩
    · intro hmem
      rcases hnew _ hmem with hsending | hsame
      · exact hsending
      · cases hsame
    · intro hmem
      rcases hnew _ hmem with hsending | hsame
      · exact hsending
      · cases hsame
    · intro p hp
      rw [clientQueue_congr hudp] at hp
      exact .inl hp
  · intro hsingle
    rw [hudp]
    exact hsingle

/-- A new connection of the client's port has an empty queue. -/
theorem udpListen_between (hudp : UdpTable limit s.udp) (port : Port) (maxPacketCount : Int)
    (hport : port = dhcpClientPort → maxPacketCount ≤ 1) :
    wp (udpListen port maxPacketCount) (fun _ t => Between s t) (fun _ _ => True) s := by
  unfold udpListen
  simp only [wp_bind, wp_get]
  split
  · trivial
  · next c rest hfree =>
    simp only [wp_modify, wp_modifyConnection, wp_bind]
    have hempty : (s.udp.connections c).packetQueue = [] := hudp.freeEmpty c (by simp [hfree])
    have hunused : ∀ a ∈ s.udp.usedConnections, a ≠ c := by
      intro a ha heq
      have hnodup := hudp.nodup
      rw [hfree] at hnodup
      subst heq
      simp [ha] at hnodup
    constructor
    · refine ⟨[], rfl, List.not_mem_nil, List.not_mem_nil, ?_⟩
      intro p hp
      obtain ⟨a, hfound, hp⟩ := mem_clientQueue.mp hp
      have hne : a ≠ c := by
        rintro rfl
        simp [hempty] at hp
      refine .inl (mem_clientQueue.mpr ⟨a, ?_, by simpa [Function.update_of_ne hne] using hp⟩)
      unfold findConnection at hfound ⊢
      simp only [Stack.setConnectionLists_udp_usedConnections, Stack.setConnection_udp_usedConnections,
        Stack.setConnectionLists_udp_connections, Stack.setConnection_udp_connections, List.find?_cons] at hfound
      split at hfound
      · exact absurd (Option.some.inj hfound).symm hne
      · rw [← hfound]
        apply List.find?_congr
        intro b hb
        rw [Function.update_of_ne (hunused b hb)]
    · intro hsingle a ha hclient
      simp only [Stack.setConnectionLists_udp_usedConnections, Stack.setConnection_udp_usedConnections,
        Stack.setConnectionLists_udp_connections, Stack.setConnection_udp_connections, List.mem_cons] at ha hclient ⊢
      rcases ha with rfl | hused
      · rw [Function.update_self] at hclient ⊢
        exact hport hclient
      · rw [Function.update_of_ne (hunused a hused)] at hclient ⊢
        exact hsingle a hused hclient

/-- The other operations may queue what comes, and begin no renewal. -/
theorem exec_between (hudp : UdpTable limit s.udp) (hruns : ¬ Op.RunsDhcp op) (hop : Op.LeavesClientPort op) :
    wp op.exec (fun _ t => Between s t) (fun _ _ => True) s := by
  have hspares : ∀ {α : Type} {x : Net α}, Spares False x → wp x (fun _ t => Between s t) (fun _ _ => True) s :=
    fun hx => wp_partial (hx s) fun _ _ => .of_client
  cases op with
  | receiveDone slot status bytes => exact hspares (gmacReceiveDone_spares slot status bytes)
  | transmitDone slot => exact .of_same rfl rfl
  | transmitStatus tsr => exact .of_same rfl rfl
  | tick now => exact .of_same rfl rfl
  | receive => exact hspares (.bind receivePacket_spares fun _ => .pure _)
  | arpTask => exact hspares arpTask_spares
  | sendToIp bytes ip => exact hspares (sendToIp_spares bytes ip)
  | udpListen port maxPacketCount => exact udpListen_between hudp port maxPacketCount hop
  | udpSend data size sourcePort destPort ip => exact hspares (udpSend_spares data size sourcePort destPort ip)
  | udpReceive size port => exact hspares (.bind (udpReceive_spares size port) fun _ => .pure _)
  | dhcpStart => exact absurd trivial hruns
  | dhcpTask => exact absurd trivial hruns
  | dhcpRelease => exact wp_partial (dhcpSendPacket_frame .release s) fun _ _ => .of_release
  | downloadFile filename serverIp =>
    simp only [Op.exec, downloadFile, tftpDownloadFile, wp_bind, wp_get, wp_pure, wp_modify]
    have hother : tftpClientPort = dhcpClientPort → (1 : Int) ≤ 1 := fun _ => le_refl _
    exact wp_next (udpListen_between hudp tftpClientPort 1 hother) fun _ _ ht => ⟨ht.trace, ht.single⟩
  | readFile size =>
    simp only [Op.exec, readFile, wp_bind, wp_get, wp_modify]
    exact wp_next (hspares (tftpRead_spares _ size)) fun _ _ ht => ⟨ht.trace, ht.single⟩
  | abortDownload errorMessage =>
    simp only [Op.exec, wp_bind, wp_get]
    exact hspares (sendTftpPacket_spares _ _ _)
  | setOurMac mac => exact .of_same rfl rfl
  | setOurIp ip => exact .of_same rfl rfl
  | setOurNetmask netmask => exact .of_same rfl rfl

instance : Std.Refl NoRenewal := ⟨fun _ => ⟨[], rfl, List.not_mem_nil⟩⟩

instance : IsTrans Stack NoRenewal := by
  constructor
  rintro s t u ⟨new, htrace, hnew⟩ ⟨new', htrace', hnew'⟩
  refine ⟨new' ++ new, by rw [htrace', htrace, List.append_assoc], ?_⟩
  rw [List.mem_append, not_or]
  exact ⟨hnew', hnew⟩

/-- A computation in which the client does not begin to renew. -/
abbrev NeverRenews {α : Type} (x : Net α) : Prop := Within NoRenewal (fun _ _ => True) x

theorem Spares.neverRenews {α : Type} {x : Net α} (h : Spares False x) : NeverRenews x := by
  apply h.mono
  · intro s t ht
    obtain ⟨new, htrace, hnew, _⟩ := ht.trace
    exact ⟨new, htrace, hnew _⟩
  · intro _ _ _
    trivial

theorem modifyDhcp_neverRenews (f : Dhcp → Dhcp) : NeverRenews (modifyDhcp f) :=
  .modify fun _ => ⟨[], rfl, List.not_mem_nil⟩

theorem dhcpSendPacket_neverRenews (type : DhcpPacketType) : NeverRenews (dhcpSendPacket type) := by
  apply (dhcpSendPacket_frame type).mono
  · intro s t ht
    obtain ⟨new, htrace, hnew⟩ := ht.trace
    refine ⟨new, htrace, ?_⟩
    intro hmem
    rcases hnew _ hmem with hsending | hsame
    · exact hsending
    · cases hsame
  · intro _ _ _
    trivial

/-- The client goes over to another state than `DHCP_RENEWING`. -/
theorem client_neverRenews : ClientParts (· ≠ .renewing) fun _ x => NeverRenews x where
  toSequential := Within.sequential _
  read := by
    apply dhcpRead_of (Within.sequential _)
    · exact (udpReceiveZeroCopy_spares _).neverRenews
    · exact fun packet => (getPacket_spares packet).neverRenews
    · exact fun _ => .modify fun _ => ⟨[], rfl, List.not_mem_nil⟩
    · exact fun packet => (freeNetworkPacket_spares packet).neverRenews
  assign := modifyDhcp_neverRenews
  offer := .modify fun _ => ⟨[.dhcpOffer], rfl, by simp⟩
  ack := .modify fun _ => ⟨[.dhcpAck], rfl, by simp⟩
  enter state h := by
    apply Within.modify
    intro s
    refine ⟨[.dhcpState state], rfl, ?_⟩
    rw [List.mem_singleton]
    rintro ⟨⟩
    exact h rfl
  send := dhcpSendPacket_neverRenews
  draw := .bind .get fun _ => .bind (.modify fun _ => ⟨[], rfl, List.not_mem_nil⟩) fun _ => .pure _
  address _ := .modify fun _ => ⟨[], rfl, List.not_mem_nil⟩
  netmask _ := .modify fun _ => ⟨[], rfl, List.not_mem_nil⟩

theorem dhcpRenewingTask_neverRenews : NeverRenews dhcpRenewingTask :=
  dhcpRenewingTask_of client_neverRenews (by decide) (by decide) (by decide)

section Took

variable {E : Halt → Stack → Prop}

theorem dhcpRead_took (h : UdpTable limit s.udp) :
    wp dhcpRead (fun _ t => Took s t dhcpClientPort) E s := by
  unfold dhcpRead
  rw [wp_bind, wp_udpReceiveZeroCopy h]
  split
  · next hhead =>
    have hnone : headDatagram s dhcpClientPort = none := by simp [headDatagram, hhead]
    exact ⟨by simp [hhead], by simp [hnone]⟩
  · next c p hhead =>
    have hsome : headDatagram s dhcpClientPort = some (s.packets p) := by simp [headDatagram, hhead]
    simp only [wp_bind, wp_getPacket, wp_get, wp_modify, wp_freeNetworkPacket, wp_pure]
    constructor
    · rw [hhead]
      rfl
    · intro content hcontent
      rw [hsome] at hcontent
      obtain rfl := Option.some.inj hcontent
      exact ⟨p, List.mem_cons_of_mem _ List.mem_cons_self⟩

theorem tryReadAck_took (h : UdpTable limit s.udp) :
    wp tryReadAck (fun _ t => Took s t dhcpClientPort) E s := by
  unfold tryReadAck
  rw [wp_bind]
  apply wp_next (dhcpRead_took h)
  intro _ t ht
  simp only [wp_ite, wp_pure, wp_bind, wp_get, wp_modifyDhcp, wp_emit, wp_getTime]
  split_ifs
  · exact ht
  · exact ht
  · exact ht
  · exact ht
  · exact ht
  · exact ht.later rfl (List.suffix_cons _ _)

end Took

theorem dhcpRenew_took (h : Sound W U limit held s) :
    wp dhcpRenew (fun _ t => Took s t dhcpClientPort) (fun _ _ => True) s := by
  unfold dhcpRenew setDhcpState
  rw [wp_bind]
  apply wp_next (dhcpSendOnTimeout_untouched h .renew)
  intro _ t ht
  have htable : UdpTable limit t.udp := ht.udp ▸ h.udp
  rw [wp_bind]
  apply wp_next (tryReadAck_took htable)
  intro accepted u hu
  have htook : Took s u dhcpClientPort := hu.earlier ht.udp ht.head
  cases accepted with
  | none => exact htook
  | some isAck =>
    cases isAck with
    | true => exact htook.later rfl (List.suffix_cons _ _)
    | false => exact htook.later rfl (List.suffix_cons _ _)

/-- A call in `DHCP_RENEWING` takes the first packet of the client's queue. -/
theorem dhcpRenewingTask_took (h : Sound W U limit held s) :
    wp dhcpRenewingTask (fun _ t => Took s t dhcpClientPort) (fun _ _ => True) s := by
  simp only [dhcpRenewingTask, setDhcpState, wp_bind, wp_get, wp_getTime, wp_ite, wp_modifyDhcp, wp_emit]
  split
  · have hleft : Sound W U limit held (s.setDhcp { s.dhcp with state := .rebinding }) := h.congr rfl
    have htook := dhcpRenew_took (hleft.observe (.dhcpState .rebinding) trivial fun _ => trivial)
    exact wp_next htook fun _ _ ht => ht.earlier rfl rfl
  · exact dhcpRenew_took h

/-- What a call in `DHCP_RENEWING` does. -/
structure Renewed (s t : Stack) : Prop where
  took : Took s t dhcpClientPort
  since : NoRenewal s t
  sent : s.dhcp.backoff.count = 0 → Sent .renew s t
  counted : t.dhcp.backoff.count ≠ 0

theorem dhcpTask_renews (h : Sound W U limit held s) (hstate : s.dhcp.state = .renewing) :
    wp dhcpTask (fun _ t => Renewed s t) (fun _ _ => True) s := by
  have hcode : ∀ Q : Unit → Stack → Prop, wp dhcpRenewingTask Q (fun _ _ => True) s →
      wp dhcpTask Q (fun _ _ => True) s := by
    intro Q hQ
    unfold dhcpTask
    rw [wp_bind, wp_get, hstate]
    exact hQ
  have hpacket : packetOf s.dhcp.state = some .renew := by
    rw [hstate]
    rfl
  have hsent : wp dhcpTask (fun _ t => s.dhcp.backoff.count = 0 → Sent .renew s t) (fun _ _ => True) s := by
    by_cases hzero : s.dhcp.backoff.count = 0
    · have hdue : backoffTimeout s.dhcp.backoff s.time = true := by simp [backoffTimeout, hzero]
      exact wp_next (dhcpTask_at_once hpacket hdue) fun _ _ ht _ => ht
    · exact wp_next (wp_true _) fun _ _ _ hno => absurd hno hzero
  have hnever : wp dhcpRenewingTask (fun _ t => NoRenewal s t) (fun _ _ => True) s := by
    apply wp_partial (dhcpRenewingTask_neverRenews s)
    intro _ t ht
    exact ht
  have hpast := hcode _ hnever
  have hqueue := hcode _ (dhcpRenewingTask_took h)
  apply wp_partial (wp_and (wp_and hpast hqueue) (wp_and hsent (dhcpTask_backoff h)))
  rintro _ t ⟨⟨hsince, htook⟩, hdue, hbackoff⟩
  refine ⟨htook, hsince, hdue, ?_⟩
  have hrenewing : (client s).dhcp.state = .renewing := hstate
  rw [hbackoff, Client.backoff, hrenewing]
  exact sent_count _ _ _

/-- The client begins to renew in `DHCP_BOUND`. -/
theorem task_renewing (h : (c.task ourMac now head).1.dhcp.state = .renewing) :
    c.dhcp.state = .renewing ∨ c.dhcp.state = .bound := by
  unfold Client.task at h
  cases hstate : c.dhcp.state with
  | renewing => exact .inl rfl
  | bound => exact .inr rfl
  | disabled => simp [hstate] at h
  | error => simp [hstate] at h
  | rebinding =>
    simp only [hstate] at h
    split at h
    · cases h
    · simp [hstate] at h
  | discover =>
    simp only [hstate, Client.discover] at h
    rcases tryReadOffer_cases c ourMac head with ⟨o, hread⟩ | ⟨_, o, _, _, _, hread⟩
    · simp [hread, hstate] at h
    · simp [hread, Client.setState] at h
  | requesting =>
    simp only [hstate, Client.requesting] at h
    rcases tryReadAck_cases c ourMac now head with ⟨o, outcome, hack, _, hread⟩ | ⟨_, o, _, _, _, hread⟩
    · rw [hread, if_neg hack] at h
      split at h
      · cases h
      · simp [hstate] at h
    · rw [hread, if_pos rfl] at h
      cases h

theorem dhcpTask_begins (hstate : s.dhcp.state = .bound) :
    wp dhcpTask (fun _ t => t.dhcp.state = .renewing →
        t.trace = .dhcpState .renewing :: s.trace ∧ t.dhcp.backoff.count = 0)
      (fun _ _ => True) s := by
  unfold dhcpTask
  simp only [wp_bind, wp_get, hstate, dhcpBoundTask, setDhcpState, resetDhcpBackoff, wp_getTime, wp_ite, wp_modifyDhcp,
    wp_emit, wp_pure]
  split
  · intro _
    exact ⟨rfl, rfl⟩
  · rintro ⟨⟩

/-- In `DHCP_RENEWING` the client has sent a RENEW unless its timeouts have just been started, and what then waits in
its queue has come after that. -/
structure Renewal (s : Stack) : Prop where
  single : SingleSlot s.udp
  unsent : s.dhcp.state = .renewing → s.dhcp.backoff.count = 0 → ¬ RenewSent s.trace
  sent : s.dhcp.state = .renewing → s.dhcp.backoff.count ≠ 0 → RenewSent s.trace ∧
    ∀ p ∈ clientQueue s, QueuedAfterRenew p s.trace

theorem Renewal.between (h : Renewal s) (hbetween : Between s t) (hdhcp : t.dhcp = s.dhcp) : Renewal t := by
  obtain ⟨new, htrace, hnever, hunsent, hqueue⟩ := hbetween.trace
  constructor
  · exact hbetween.single h.single
  · intro hstate hzero
    rw [hdhcp] at hstate hzero
    rw [htrace]
    exact not_renewSent_append (h.unsent hstate hzero) hunsent
  · intro hstate hcount
    rw [hdhcp] at hstate hcount
    obtain ⟨hsent, hqueued⟩ := h.sent hstate hcount
    rw [htrace]
    refine ⟨hsent.later hnever, ?_⟩
    intro p hp
    rcases hqueue p hp with hold | hnew
    · exact (hqueued p hold).later hnever
    · exact hsent.queued hnever hnew

theorem Renewal.renewed (h : Renewal s) (hudp : UdpTable limit s.udp) (hstate : s.dhcp.state = .renewing)
    (hrenewed : Renewed s t) (hlisteners : listeners t.udp = listeners s.udp) : Renewal t := by
  constructor
  · exact singleSlot_listeners h.single hlisteners
  · intro _ hzero
    exact absurd hzero hrenewed.counted
  · intro _ _
    obtain ⟨new, htrace, hnever⟩ := hrenewed.since
    constructor
    · by_cases hzero : s.dhcp.backoff.count = 0
      · obtain ⟨sent, hsame, hsent⟩ := hrenewed.sent hzero
        obtain rfl : sent = new := List.append_cancel_right (hsame.symm.trans htrace)
        obtain ⟨newer, older, rfl⟩ := List.append_of_mem hsent
        refine ⟨newer, older ++ s.trace, by simp [htrace], ?_⟩
        intro hmem
        exact hnever (List.mem_append_left _ hmem)
      · rw [htrace]
        exact (h.sent hstate hzero).1.later hnever
    · intro p hp
      rw [clientQueue_took hudp h.single hrenewed.took] at hp
      cases hp

theorem Renewal.idle (hsingle : SingleSlot s.udp) (hstate : s.dhcp.state ≠ .renewing) : Renewal s :=
  ⟨hsingle, fun h => absurd h hstate, fun h => absurd h hstate⟩

/-- One call of the client, from an intact state. -/
theorem dhcpTask_renewal (hs : Sound W U limit held s) (h : Renewal s) :
    wp dhcpTask (fun _ t => Renewal t) (fun _ _ => True) s := by
  have hlisteners := (dhcpTask_keepsApplication : KeepsApplication True dhcpTask) s
  by_cases hrenewing : s.dhcp.state = .renewing
  · apply wp_partial (wp_and (dhcpTask_renews hs hrenewing) hlisteners)
    rintro _ t ⟨hrenewed, hkept⟩
    exact h.renewed hs.udp hrenewing hrenewed (hkept.listeners trivial)
  by_cases hbound : s.dhcp.state = .bound
  · apply wp_partial (wp_and (dhcpTask_begins hbound) hlisteners)
    rintro _ t ⟨hbegins, hkept⟩
    have hsingle := singleSlot_listeners h.single (hkept.listeners trivial)
    refine ⟨hsingle, ?_, ?_⟩
    · intro hstate _
      rw [(hbegins hstate).1]
      exact not_renewSent_begun _
    · intro hstate hcount
      exact absurd (hbegins hstate).2 hcount
  · apply wp_partial (wp_and (dhcpTask_refines hs) hlisteners)
    rintro _ t ⟨hrefines, hkept⟩
    apply Renewal.idle (singleSlot_listeners h.single (hkept.listeners trivial))
    intro hstate
    have hafter := congrArg (fun c => c.dhcp.state) hrefines.client
    rcases task_renewing (hafter.symm.trans hstate) with hsame | hsame
    · exact hrenewing hsame
    · exact hbound hsame

theorem udpListen_renewal (hudp : UdpTable limit s.udp) (hsingle : SingleSlot s.udp)
    (hstate : s.dhcp.state ≠ .renewing) :
    wp (udpListen dhcpClientPort 1) (fun _ t => Renewal t) (fun _ _ => True) s := by
  have hopens := udpListen_between hudp dhcpClientPort 1 fun _ => le_refl _
  apply wp_partial (wp_and hopens (udpListen_elsewhere dhcpClientPort 1))
  rintro _ t ⟨hbetween, helsewhere⟩
  have hsame : t.dhcp.state = s.dhcp.state := congrArg (fun c => c.dhcp.state) helsewhere.client
  apply Renewal.idle (hbetween.single hsingle)
  rw [hsame]
  exact hstate

theorem dhcpStart_renewal (hudp : UdpTable limit s.udp) (h : Renewal s) :
    wp dhcpStart (fun _ t => Renewal t) (fun _ _ => True) s := by
  simp only [dhcpStart, setDhcpState, wp_bind, wp_modifyDhcp, wp_emit, wp_random, wp_getTime]
  exact udpListen_renewal hudp h.single (by simp)

/-- While the lease is renewed, what waits in the client's queue has come after a RENEW, in every run that opens the
client's port for no more than the client does. -/
theorem reached_renewal {application : Application} {time : Time} {entropy : ℕ → UInt32}
    (h : Reaches Op.exec (fun _ op => Op.LeavesClientPort op) (booted application time entropy) s) : Renewal s := by
  apply h.invariant
  · apply Renewal.idle
    · intro c hc
      rw [booted_fresh.udp.2.1] at hc
      cases hc
    · rw [booted_fresh.dhcp]
      decide
  · intro s op hreached hrenewal hop
    obtain ⟨limit, held, hs⟩ := reaches_intact False hreached fun hfalse => hfalse.elim
    by_cases hruns : Op.RunsDhcp op
    · cases op with
      | dhcpTask => exact dhcpTask_renewal hs hrenewal
      | dhcpStart => exact dhcpStart_renewal hs.udp hrenewal
      | _ => exact hruns.elim
    · apply wp_partial (wp_and (exec_between hs.udp hruns hop) (exec_dhcp hruns))
      rintro _ t ⟨hbetween, hdhcp⟩
      exact hrenewal.between hbetween hdhcp

end MiniIp.Invariant
