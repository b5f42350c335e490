import MiniIp.Invariant.Lease

/-!
# The life of a lease

An automaton of the DHCP client. It reads what the client does: the packets it sends, the replies it accepts and the
states it enters. `InPhase phase s` says that the automaton accepts what the client has done until `s`, and stands in
`phase`. The client is started once.
-/

set_option autoImplicit false

namespace MiniIp.Invariant

open MiniIp.Source MiniIp.Library.Wp MiniIp.Library.Runs

/-- What the client does, as a trace shows it. -/
inductive DhcpStep where
  | sent (type : DhcpPacketType)
  | offered | acknowledged
  | entered (state : DhcpState)
  deriving DecidableEq

/-- Between two calls the client is in a state; in `DHCP_REBINDING`, `late` says whether it has sent a
RENEW there. An accepted reply has to be followed by the state it leads to. -/
inductive Phase where
  | idle (state : DhcpState)
  | late (renewed : Bool)
  | selecting | binding
  deriving DecidableEq

def Phase.state : Phase → Option DhcpState
  | .idle .rebinding => none
  | .idle state => some state
  | .late _ => some .rebinding
  | .selecting => none
  | .binding => none

/-- The automaton: the steps that each phase allows, and where they lead. -/
def Phase.next : Phase → DhcpStep → Option Phase
  | .idle .disabled, .entered .discover => some (.idle .discover)
  | .idle .discover, .sent .discover => some (.idle .discover)
  | .idle .discover, .offered => some .selecting
  | .selecting, .entered .requesting => some (.idle .requesting)
  | .idle .requesting, .sent .request => some (.idle .requesting)
  | .idle .requesting, .acknowledged => some .binding
  | .idle .requesting, .entered .discover => some (.idle .discover)
  | .binding, .entered .bound => some (.idle .bound)
  | .idle .bound, .entered .renewing => some (.idle .renewing)
  | .idle .renewing, .sent .renew => some (.idle .renewing)
  | .idle .renewing, .acknowledged => some .binding
  | .idle .renewing, .entered .discover => some (.idle .discover)
  | .idle .renewing, .entered .rebinding => some (.late false)
  | .late false, .sent .renew => some (.late true)
  | .late _, .acknowledged => some .binding
  | .late _, .entered .discover => some (.idle .discover)
  | .idle state, .sent .release => some (.idle state)
  | .late renewed, .sent .release => some (.late renewed)
  | _, _ => none

def Event.dhcpStep : Event → Option DhcpStep
  | .dhcpSent type => some (.sent type)
  | .dhcpState state => some (.entered state)
  | .dhcpOffer => some .offered
  | .dhcpAck => some .acknowledged
  | _ => none

/-- Where the automaton stands after a trace, newest event first. -/
def phaseAfter (trace : List Event) : Option Phase :=
  (trace.filterMap Event.dhcpStep).foldrM (fun step phase => phase.next step) (.idle .disabled)

/-- The trace is a word of the automaton, which has come to this phase. -/
def InPhase (phase : Phase) (s : Stack) : Prop := phaseAfter s.trace = some phase

variable {phase phase' : Phase} {s t : Stack} {α : Type}

theorem InPhase.silent {new : List Event} (h : InPhase phase s) (htrace : t.trace = new ++ s.trace)
    (hnew : ∀ event ∈ new, NotDhcp event) : InPhase phase t := by
  have hnone : new.filterMap Event.dhcpStep = [] := by
    rw [List.filterMap_eq_nil_iff]
    intro event hevent
    have hnot := hnew event hevent
    cases event <;> first | rfl | exact hnot.elim
  unfold InPhase phaseAfter at *
  rw [htrace, List.filterMap_append, hnone]
  exact h

theorem InPhase.observe {event : Event} {step : DhcpStep} (h : InPhase phase s)
    (hstep : Event.dhcpStep event = some step) (hnext : phase.next step = some phase') :
    InPhase phase' (s.observe event) := by
  unfold InPhase phaseAfter at *
  rw [Stack.observe_trace, List.filterMap_cons_some hstep, List.foldrM_cons, h]
  exact hnext

theorem InPhase.same (h : InPhase phase s) (htrace : t.trace = s.trace) : InPhase phase t := by
  unfold InPhase at *
  rw [htrace]
  exact h

/-- What is not the client's leaves the automaton where it is. -/
theorem Spares.keepsPhase {x : Net α} (hx : Spares False x) (h : InPhase phase s) :
    wp x (fun _ t => InPhase phase t ∧ t.dhcp = s.dhcp) (fun _ _ => True) s := by
  apply wp_partial (hx s)
  intro _ t ht
  obtain ⟨new, htrace, hnew, _⟩ := ht.trace
  exact ⟨h.silent htrace hnew, ht.dhcp⟩

theorem setDhcpState_phase {state : DhcpState} (h : InPhase phase s)
    (hnext : phase.next (.entered state) = some phase') :
    wp (setDhcpState state) (fun _ t => InPhase phase' t ∧ t.dhcp = { s.dhcp with state := state })
      (fun _ _ => True) s := by
  unfold setDhcpState
  rw [wp_bind, wp_modifyDhcp, wp_emit]
  exact ⟨InPhase.observe (s := s.setDhcp _) (h.same rfl) rfl hnext, rfl⟩

theorem dhcpSendPacket_phase {type : DhcpPacketType} (h : InPhase phase s)
    (hnext : phase.next (.sent type) = some phase') :
    wp (dhcpSendPacket type) (fun _ t => InPhase phase' t ∧ t.dhcp = s.dhcp) (fun _ _ => True) s := by
  unfold dhcpSendPacket
  rw [wp_bind]
  apply wp_next (Spares.keepsPhase allocateNetworkPacket_spares h)
  intro p t ht
  obtain ⟨hphase, hdhcp⟩ := ht
  simp only [wp_bind, wp_get, wp_modifyPacket, wp_emit]
  have hsent : ∀ content, InPhase phase' ((t.write p content).observe (.dhcpSent type)) := fun content =>
    InPhase.observe (hphase.same rfl) rfl hnext
  apply wp_next (Spares.keepsPhase (Sends.spares (udpSendZeroCopy_sends _ _ _ _)) (hsent _))
  intro _ u hu
  exact ⟨hu.1, hu.2.trans hdhcp⟩

/-- A state in which packets of one type are sent, now and then. -/
theorem dhcpSendOnTimeout_phase (type : DhcpPacketType) (h : InPhase phase s)
    (hnext : phase.next (.sent type) = some phase') :
    wp (dhcpSendOnTimeout type) (fun _ t => (InPhase phase t ∨ InPhase phase' t) ∧ t.dhcp.state = s.dhcp.state)
      (fun _ _ => True) s := by
  unfold dhcpSendOnTimeout
  simp only [wp_bind, wp_get, wp_getTime, wp_ite, wp_pure]
  split
  · simp only [wp_random, wp_modifyDhcp]
    apply wp_next (dhcpSendPacket_phase h hnext)
    intro _ t ht
    exact ⟨.inr (ht.1.same rfl), congrArg (·.state) ht.2⟩
  · exact ⟨.inl h, trivial⟩

theorem dhcpRead_phase (h : InPhase phase s) :
    wp dhcpRead (fun _ t => InPhase phase t ∧ t.dhcp = s.dhcp) (fun _ _ => True) s := by
  unfold dhcpRead
  rw [wp_bind]
  apply wp_next (Spares.keepsPhase (udpReceiveZeroCopy_spares _) h)
  intro taken t ht
  cases taken with
  | none => exact ht
  | some packet =>
    simp only [wp_bind, wp_getPacket, wp_get, wp_modify, wp_freeNetworkPacket, wp_pure]
    have hfreed : ∀ event ∈ [Event.freed packet], NotDhcp event := by simp [NotDhcp]
    exact ⟨ht.1.silent rfl hfreed, ht.2⟩

theorem tryReadOffer_phase (h : InPhase phase s) (hnext : phase.next .offered = some phase') :
    wp tryReadOffer (fun offered t => InPhase (if offered then phase' else phase) t ∧ t.dhcp.state = s.dhcp.state)
      (fun _ _ => True) s := by
  unfold tryReadOffer
  rw [wp_bind]
  apply wp_next (dhcpRead_phase h)
  intro accepted t ht
  obtain ⟨hphase, hdhcp⟩ := ht
  have hstate : t.dhcp.state = s.dhcp.state := congrArg (·.state) hdhcp
  simp only [wp_ite, wp_pure, wp_bind, wp_get, wp_modifyDhcp, wp_emit, Bool.false_eq_true, ↓reduceIte]
  split_ifs
  · exact ⟨hphase, hstate⟩
  · exact ⟨hphase, hstate⟩
  · exact ⟨InPhase.observe (s := t.setDhcp _) (hphase.same rfl) rfl hnext, hstate⟩

theorem tryReadAck_phase (h : InPhase phase s) (hnext : phase.next .acknowledged = some phase') :
    wp tryReadAck (fun answer t => InPhase (if answer = some true then phase' else phase) t ∧
      t.dhcp.state = s.dhcp.state) (fun _ _ => True) s := by
  unfold tryReadAck
  rw [wp_bind]
  apply wp_next (dhcpRead_phase h)
  intro accepted t ht
  obtain ⟨hphase, hdhcp⟩ := ht
  have hstate : t.dhcp.state = s.dhcp.state := congrArg (·.state) hdhcp
  simp only [wp_ite, wp_pure, wp_bind, wp_get, wp_getTime, wp_modifyDhcp, wp_emit, Option.some.injEq, reduceCtorEq,
    Bool.false_eq_true, ↓reduceIte]
  split_ifs
  · exact ⟨hphase, hstate⟩
  · exact ⟨hphase, hstate⟩
  · exact ⟨hphase, hstate⟩
  · exact ⟨hphase, hstate⟩
  · exact ⟨hphase, hstate⟩
  · exact ⟨InPhase.observe (s := t.setDhcp _) (hphase.same rfl) rfl hnext, hstate⟩

/-- Between two calls the automaton stands in a phase of the state. -/
def Staged (s : Stack) : Prop := ∃ phase, InPhase phase s ∧ phase.state = some s.dhcp.state

theorem Phase.idle_of_state {state : DhcpState} (h : phase.state = some state) (hstate : state ≠ .rebinding) :
    phase = .idle state := by
  cases phase with
  | idle state' => cases state' <;> cases h <;> rfl
  | late renewed =>
    cases h
    exact absurd rfl hstate
  | selecting => cases h
  | binding => cases h

theorem Phase.late_of_state (h : phase.state = some .rebinding) : ∃ renewed, phase = .late renewed := by
  cases phase with
  | idle state => cases state <;> cases h
  | late renewed => exact ⟨renewed, rfl⟩
  | selecting => cases h
  | binding => cases h

theorem Staged.idle {state : DhcpState} (h : Staged s) (hs : s.dhcp.state = state) (hstate : state ≠ .rebinding) :
    InPhase (.idle state) s := by
  obtain ⟨phase, hphase, hphases⟩ := h
  rw [hs] at hphases
  rwa [Phase.idle_of_state hphases hstate] at hphase

theorem staged_entered {state : DhcpState} (h : InPhase (.idle state) s) (hs : s.dhcp.state = state)
    (hidle : state ≠ .rebinding) : Staged s := by
  refine ⟨.idle state, h, ?_⟩
  rw [hs]
  cases state with
  | rebinding => exact absurd rfl hidle
  | _ => rfl

/-- The client enters a state and resets its backoff. -/
theorem entersFresh_staged {state : DhcpState} (h : InPhase phase s)
    (hnext : phase.next (.entered state) = some (.idle state)) (hidle : state ≠ .rebinding) :
    wp (setDhcpState state >>= fun _ => resetDhcpBackoff) (fun _ t => Staged t) (fun _ _ => True) s := by
  rw [wp_bind]
  apply wp_next (setDhcpState_phase h hnext)
  intro _ t ht
  obtain ⟨hphase, hdhcp⟩ := ht
  unfold resetDhcpBackoff
  rw [wp_modifyDhcp]
  exact staged_entered (hphase.same rfl) (congrArg (·.state) hdhcp) hidle

theorem enters_staged {state : DhcpState} (h : InPhase phase s)
    (hnext : phase.next (.entered state) = some (.idle state)) (hidle : state ≠ .rebinding) :
    wp (setDhcpState state) (fun _ t => Staged t) (fun _ _ => True) s := by
  apply wp_next (setDhcpState_phase h hnext)
  intro _ t ht
  obtain ⟨hphase, hdhcp⟩ := ht
  exact staged_entered hphase (congrArg (·.state) hdhcp) hidle

theorem dhcpDiscoverTask_staged (h : InPhase (.idle .discover) s) (hs : s.dhcp.state = .discover) :
    wp dhcpDiscoverTask (fun _ t => Staged t) (fun _ _ => True) s := by
  unfold dhcpDiscoverTask
  rw [wp_bind]
  apply wp_next (dhcpSendOnTimeout_phase .discover h rfl)
  intro _ t ht
  obtain ⟨hsent, hstate⟩ := ht
  have hphase : InPhase (.idle .discover) t := hsent.elim id id
  rw [wp_bind]
  apply wp_next (tryReadOffer_phase hphase rfl)
  intro offered u hu
  obtain ⟨hread, hstate'⟩ := hu
  cases offered with
  | true => exact entersFresh_staged hread rfl (by decide)
  | false => exact staged_entered hread (by rw [hstate', hstate, hs]) (by decide)

theorem dhcpRequestingTask_staged (h : InPhase (.idle .requesting) s) (hs : s.dhcp.state = .requesting) :
    wp dhcpRequestingTask (fun _ t => Staged t) (fun _ _ => True) s := by
  unfold dhcpRequestingTask
  rw [wp_bind]
  apply wp_next (dhcpSendOnTimeout_phase .request h rfl)
  intro _ t ht
  obtain ⟨hsent, hstate⟩ := ht
  have hphase : InPhase (.idle .requesting) t := hsent.elim id id
  rw [wp_bind]
  apply wp_next (tryReadAck_phase hphase rfl)
  intro answer u hu
  obtain ⟨hread, hstate'⟩ := hu
  cases answer with
  | none => exact staged_entered hread (by rw [hstate', hstate, hs]) (by decide)
  | some isAck =>
    cases isAck with
    | true =>
      rw [wp_bind]
      apply wp_next (setDhcpState_phase hread rfl)
      intro _ v hv
      exact staged_entered (hv.1.same rfl) (congrArg (·.state) hv.2) (by decide)
    | false =>
      rw [wp_bind, wp_modifyDhcp]
      exact entersFresh_staged (hread.same (t := u.setDhcp _) rfl) rfl (by decide)

/-- The phases in which a lease may be renewed. -/
theorem dhcpRenew_staged (sent : Phase) (h : InPhase phase s) (hs : phase.state = some s.dhcp.state)
    (hsends : phase.next (.sent .renew) = some sent) (hsent : sent.state = phase.state)
    (hanswers : ∀ now, now = phase ∨ now = sent →
      now.next .acknowledged = some .binding ∧ now.next (.entered .discover) = some (.idle .discover)) :
    wp dhcpRenew (fun _ t => Staged t) (fun _ _ => True) s := by
  unfold dhcpRenew
  rw [wp_bind]
  apply wp_next (dhcpSendOnTimeout_phase .renew h hsends)
  intro _ t ht
  obtain ⟨hphase, hstate⟩ := ht
  have hnow : ∃ now, InPhase now t ∧ now.state = phase.state ∧ (now = phase ∨ now = sent) := by
    rcases hphase with hphase | hphase
    · exact ⟨phase, hphase, rfl, .inl rfl⟩
    · exact ⟨sent, hphase, hsent, .inr rfl⟩
  obtain ⟨now, hin, hnows, heither⟩ := hnow
  obtain ⟨hack, hnak⟩ := hanswers now heither
  rw [wp_bind]
  apply wp_next (tryReadAck_phase hin hack)
  intro answer u hu
  obtain ⟨hread, hstate'⟩ := hu
  cases answer with
  | none => exact ⟨now, hread, by rw [hnows, hs, hstate', hstate]⟩
  | some isAck =>
    cases isAck with
    | true => exact enters_staged hread rfl (by decide)
    | false => exact enters_staged hread hnak (by decide)

theorem dhcpRenewingTask_staged (h : InPhase (.idle .renewing) s) (hs : s.dhcp.state = .renewing) :
    wp dhcpRenewingTask (fun _ t => Staged t) (fun _ _ => True) s := by
  unfold dhcpRenewingTask
  simp only [wp_bind, wp_get, wp_getTime, wp_ite]
  split
  · apply wp_next (setDhcpState_phase h (show Phase.next _ _ = some (.late false) from rfl))
    intro _ t ht
    obtain ⟨hphase, hdhcp⟩ := ht
    apply dhcpRenew_staged (.late true) hphase
    · rw [hdhcp]
      rfl
    · rfl
    · rfl
    · rintro now (rfl | rfl)
      · exact ⟨rfl, rfl⟩
      · exact ⟨rfl, rfl⟩
  · apply dhcpRenew_staged (.idle .renewing) h
    · rw [hs]
      rfl
    · rfl
    · rfl
    · rintro now (rfl | rfl)
      · exact ⟨rfl, rfl⟩
      · exact ⟨rfl, rfl⟩

theorem dhcpBoundTask_staged (h : InPhase (.idle .bound) s) (hs : s.dhcp.state = .bound) :
    wp dhcpBoundTask (fun _ t => Staged t) (fun _ _ => True) s := by
  unfold dhcpBoundTask
  simp only [wp_bind, wp_get, wp_getTime]
  rw [wp_ite]
  split
  · exact entersFresh_staged h rfl (by decide)
  · exact staged_entered h hs (by decide)

theorem dhcpRebindingTask_staged (h : Staged s) (hs : s.dhcp.state = .rebinding) :
    wp dhcpRebindingTask (fun _ t => Staged t) (fun _ _ => True) s := by
  unfold dhcpRebindingTask
  simp only [wp_bind, wp_get, wp_getTime]
  rw [wp_ite]
  split
  · obtain ⟨phase, hphase, hstate⟩ := h
    rw [hs] at hstate
    obtain ⟨renewed, rfl⟩ := Phase.late_of_state hstate
    have hnext : (Phase.late renewed).next (.entered .discover) = some (.idle .discover) := by
      cases renewed <;> rfl
    exact entersFresh_staged hphase hnext (by decide)
  · exact h

/-- One call of the client, from a state whose phase fits. -/
theorem dhcpTask_staged (h : Staged s) : wp dhcpTask (fun _ t => Staged t) (fun _ _ => True) s := by
  unfold dhcpTask
  rw [wp_bind, wp_get]
  cases hstate : s.dhcp.state with
  | disabled => exact h
  | discover => exact dhcpDiscoverTask_staged (h.idle hstate (by decide)) hstate
  | requesting => exact dhcpRequestingTask_staged (h.idle hstate (by decide)) hstate
  | bound => exact dhcpBoundTask_staged (h.idle hstate (by decide)) hstate
  | renewing => exact dhcpRenewingTask_staged (h.idle hstate (by decide)) hstate
  | rebinding => exact dhcpRebindingTask_staged h hstate
  | error => exact h

/-- `dhcp_start` is called once. -/
def StartsOnce (s : Stack) : Op → Prop
  | .dhcpStart => s.dhcp.state = .disabled
  | _ => True

/-- The client is started once, from `DHCP_DISABLED`. -/
theorem dhcpStart_staged (h : Staged s) (hs : s.dhcp.state = .disabled) :
    wp dhcpStart (fun _ t => Staged t) (fun _ _ => True) s := by
  unfold dhcpStart
  rw [wp_bind]
  apply wp_next (setDhcpState_phase (h.idle hs (by decide)) (show Phase.next _ _ = some (.idle .discover) from rfl))
  intro _ t ht
  obtain ⟨hphase, hdhcp⟩ := ht
  have hstate : t.dhcp.state = .discover := congrArg (·.state) hdhcp
  simp only [wp_bind, wp_random, wp_getTime, wp_modifyDhcp, udpListen, wp_get]
  split
  · trivial
  · exact staged_entered (hphase.same rfl) hstate (by decide)

theorem Staged.spared {x : Net α} (h : Staged s) (hx : Spares False x) :
    wp x (fun _ t => Staged t) (fun _ _ => True) s := by
  obtain ⟨phase, hphase, hstate⟩ := h
  apply wp_next (Spares.keepsPhase hx hphase)
  intro _ t ht
  refine ⟨phase, ht.1, ?_⟩
  rw [ht.2, hstate]

theorem Staged.same (h : Staged s) (htrace : t.trace = s.trace) (hdhcp : t.dhcp = s.dhcp) : Staged t := by
  obtain ⟨phase, hphase, hstate⟩ := h
  refine ⟨phase, hphase.same htrace, ?_⟩
  rw [hdhcp, hstate]

theorem dhcpRelease_staged (h : Staged s) : wp dhcpRelease (fun _ t => Staged t) (fun _ _ => True) s := by
  obtain ⟨phase, hphase, hstate⟩ := h
  have hnext : phase.next (.sent .release) = some phase := by
    cases phase with
    | idle state => cases state <;> rfl
    | late renewed => cases renewed <;> rfl
    | selecting => cases hstate
    | binding => cases hstate
  apply wp_next (dhcpSendPacket_phase hphase hnext)
  intro _ t ht
  refine ⟨phase, ht.1, ?_⟩
  rw [ht.2, hstate]

theorem udpListen_staged (h : Staged s) (port : Port) (maxPacketCount : Int) :
    wp (udpListen port maxPacketCount) (fun _ t => Staged t) (fun _ _ => True) s := by
  unfold udpListen
  simp only [wp_bind, wp_get]
  split
  · trivial
  · exact h.same rfl rfl

/-- Every operation of a run in which the client is started once. -/
theorem exec_staged {op : Op} (h : Staged s) (hop : StartsOnce s op) :
    wp op.exec (fun _ t => Staged t) (fun _ _ => True) s := by
  cases op with
  | receiveDone slot status bytes => exact h.spared (gmacReceiveDone_spares slot status bytes)
  | transmitDone slot => exact h.same rfl rfl
  | transmitStatus tsr => exact h.same rfl rfl
  | tick now => exact h.same rfl rfl
  | receive => exact h.spared (.bind receivePacket_spares fun _ => .pure _)
  | arpTask => exact h.spared arpTask_spares
  | sendToIp bytes ip => exact h.spared (sendToIp_spares bytes ip)
  | udpListen port maxPacketCount => exact udpListen_staged h port maxPacketCount
  | udpSend data size sourcePort destPort ip => exact h.spared (udpSend_spares data size sourcePort destPort ip)
  | udpReceive size port => exact h.spared (.bind (udpReceive_spares size port) fun _ => .pure _)
  | dhcpStart => exact dhcpStart_staged h hop
  | dhcpTask => exact dhcpTask_staged h
  | dhcpRelease => exact dhcpRelease_staged h
  | downloadFile filename serverIp =>
    simp only [Op.exec, downloadFile, tftpDownloadFile, wp_bind, wp_get, wp_pure, wp_modify]
    exact wp_next (udpListen_staged h _ _) fun _ _ ht => ht.same rfl rfl
  | readFile size =>
    simp only [Op.exec, readFile, wp_bind, wp_get, wp_modify]
    exact wp_next (h.spared (tftpRead_spares _ size)) fun _ _ ht => ht.same rfl rfl
  | abortDownload errorMessage =>
    simp only [Op.exec, wp_bind, wp_get]
    exact h.spared (sendTftpPacket_spares _ _ _)
  | setOurMac mac => exact h.same rfl rfl
  | setOurIp ip => exact h.same rfl rfl
  | setOurNetmask netmask => exact h.same rfl rfl

end MiniIp.Invariant
