import MiniIp.Invariant.Attempts
import MiniIp.Invariant.Replies

/-!
# The timers of a lease

From one ACK to the next the client goes over to another state by the clock or by a NACK. The clock of the source is a
32-bit counter of milliseconds. Beside it runs one that does not wrap, so that what the code compares can be compared
with the time that has really passed. Runs are from `network_init`, and no ACK is read.
-/

set_option autoImplicit false

namespace MiniIp.Invariant

open MiniIp.Source MiniIp.Library.Runs MiniIp.Library.Wp

/-- The stack, and the milliseconds that have passed. -/
structure Clocked where
  stack : Stack
  elapsed : ℕ

inductive Passing where
  | wait (milliseconds : ℕ)
  | call (op : Op)

def Passing.exec : Passing → EStateM Halt Clocked Unit
  | wait milliseconds => modify fun c =>
    { stack := { c.stack with time := c.stack.time + UInt32.ofNat milliseconds }
      elapsed := c.elapsed + milliseconds }
  | call op => onPart Clocked.stack (fun s c => { c with stack := s }) op.exec

/-- The client is not started again, and a poll meets the condition. -/
def Passing.Allowed (polls : Stack → Prop) (c : Clocked) : Passing → Prop
  | wait _ => True
  | call (.tick _) | call .dhcpStart => False
  | call .dhcpTask => polls c.stack
  | call _ => True

/-- Some time after `s`, with all polls meeting the condition. -/
def After (polls : Stack → Prop) (s : Stack) : Clocked → Prop := Reaches Passing.exec (Passing.Allowed polls) ⟨s, 0⟩

/-- The client reads no ACK. -/
def NoAck (s : Stack) : Prop :=
  ∀ p seconds, headDatagram s dhcpClientPort = some p → ¬ AckFor (client s) s.ourMac p seconds

/-- No packet has come for the client. -/
def NoPacket (s : Stack) : Prop := headDatagram s dhcpClientPort = none

/-- What a call of `dhcp_task` that reads no ACK makes of the lease. -/
structure Moved (d : Dhcp) (now : Time) (d' : Dhcp) : Prop where
  began : d'.time = d.time
  leaseTime : d'.leaseTime = d.leaseTime
  renewing : d'.state = .renewing → d.state = .renewing ∨ d.state = .bound ∧ renewingExpired d now = true
  rebinding : d'.state = .rebinding → d.state = .rebinding ∨ d.state = .renewing ∧ rebindingExpired d now = true
  seeking : d'.state = .discover ∨ d'.state = .requesting →
    d.state = .renewing ∨ d.state = .rebinding ∨ d.state = .discover ∨ d.state = .requesting

variable {application : Application} {time : Time} {entropy : ℕ → UInt32} {s t u : Stack} {op : Op} {c : Client}
  {d : Dhcp} {ourMac : Mac} {now : Time} {head : Option NetworkPacket} {leaseTime : Time} {elapsed elapsed' : ℕ}
  {state : DhcpState} {k k' : Clocked}

theorem NoPacket.noAck (h : NoPacket s) : NoAck s := by
  intro p seconds hhead
  rw [h] at hhead
  cases hhead

theorem Moved.refl (d : Dhcp) (now : Time) : Moved d now d where
  began := rfl
  leaseTime := rfl
  renewing := .inl
  rebinding := .inl
  seeking h := .inr (.inr h)

theorem discover_moved (hstate : c.dhcp.state = .discover) : Moved c.dhcp now (c.discover ourMac head).1.dhcp := by
  unfold Client.discover
  rcases tryReadOffer_cases c ourMac head with ⟨o, hread⟩ | ⟨_, o, _, _, _, hread⟩
  · rw [hread]
    exact .refl _ now
  · rw [hread, if_pos rfl]
    constructor
    · rfl
    · rfl
    · rintro ⟨⟩
    · rintro ⟨⟩
    · intro _
      exact .inr (.inr (.inl hstate))

theorem requesting_moved (hstate : c.dhcp.state = .requesting) (hack : (c.tryReadAck ourMac now head).2 ≠ .ack) :
    Moved c.dhcp now (c.requesting ourMac now head).1.dhcp := by
  unfold Client.requesting
  rcases tryReadAck_cases c ourMac now head with ⟨o, outcome, _, _, hread⟩ | ⟨_, o, _, _, _, hread⟩
  · rw [hread] at hack ⊢
    rw [if_neg hack]
    split
    · constructor
      · rfl
      · rfl
      · rintro ⟨⟩
      · rintro ⟨⟩
      · intro _
        exact .inr (.inr (.inr hstate))
    · exact .refl _ now
  · rw [hread] at hack
    exact absurd rfl hack

theorem timed_moved (c : Client) (now : Time) : Moved c.dhcp now (timed c now).dhcp := by
  unfold timed
  split
  · next hexpired =>
    constructor
    · rfl
    · rfl
    · rintro ⟨⟩
    · exact fun _ => .inr hexpired
    · rintro (h | h)
      · cases h
      · cases h
  · exact .refl _ now

theorem renewing_moved (hstate : c.dhcp.state = .renewing)
    (hack : ((timed c now).tryReadAck ourMac now head).2 ≠ .ack) :
    Moved c.dhcp now ((timed c now).renew ourMac now head).1.dhcp := by
  have htimed := timed_moved c now
  unfold Client.renew
  rcases tryReadAck_cases (timed c now) ourMac now head with ⟨o, outcome, _, _, hread⟩ | ⟨_, o, _, _, _, hread⟩
  · rw [hread] at hack ⊢
    rw [if_neg hack]
    split
    · constructor
      · exact htimed.began
      · exact htimed.leaseTime
      · rintro ⟨⟩
      · rintro ⟨⟩
      · intro _
        exact .inl hstate
    · exact htimed
  · rw [hread] at hack
    exact absurd rfl hack

/-- A call that finds no ACK keeps the times of the lease. -/
theorem task_moved (hno : ∀ p seconds, head = some p → ¬ AckFor c ourMac p seconds) :
    Moved c.dhcp now (c.task ourMac now head).1.dhcp := by
  have hack : ((timed c now).tryReadAck ourMac now head).2 ≠ .ack := by
    rw [ne_eq, tryReadAck_ack_iff]
    rintro ⟨p, seconds, hhead, hackFor, _⟩
    exact hno p seconds hhead ((ackFor_timed seconds).mp hackFor)
  cases hstate : c.dhcp.state with
  | disabled => simpa [Client.task, hstate] using Moved.refl c.dhcp now
  | discover => simpa [Client.task, hstate] using discover_moved hstate
  | requesting =>
    have htimed : timed c now = c := by simp [timed, hstate]
    rw [htimed] at hack
    simpa [Client.task, hstate] using requesting_moved hstate hack
  | bound =>
    simp only [Client.task, hstate]
    split
    · next hexpired =>
      constructor
      · rfl
      · rfl
      · exact fun _ => .inr ⟨hstate, hexpired⟩
      · rintro ⟨⟩
      · rintro (h | h)
        · cases h
        · cases h
    · exact .refl _ now
  | renewing =>
    have hnot : c.dhcp.state ≠ .requesting := by simp [hstate]
    rw [task_awaits (.inr hstate), if_neg hnot]
    exact renewing_moved hstate hack
  | rebinding =>
    simp only [Client.task, hstate]
    split
    · constructor
      · rfl
      · rfl
      · rintro ⟨⟩
      · rintro ⟨⟩
      · exact fun _ => .inr (.inl hstate)
    · exact .refl _ now
  | error => simpa [Client.task, hstate] using Moved.refl c.dhcp now

/-- The client starts its timeouts where it begins to renew. -/
theorem bound_restarted {backoff : Backoff} {random : UInt32} (hbound : c.dhcp.state = .bound)
    (hrenewing : (c.task ourMac now head).1.dhcp.state = .renewing) :
    Restarted (c.backoff backoff now random (c.task ourMac now head).2) := by
  unfold Client.backoff
  unfold Client.task at hrenewing
  rw [hbound] at hrenewing ⊢
  dsimp only at hrenewing ⊢
  by_cases hexpired : renewingExpired c.dhcp now = true
  · rw [if_pos hexpired]
    exact ⟨rfl, rfl⟩
  · rw [if_neg hexpired, hbound] at hrenewing
    cases hrenewing

/-- What a poll that reads no ACK does. -/
structure Advanced (s t : Stack) : Prop where
  moved : Moved s.dhcp s.time t.dhcp
  time : t.time = s.time
  trace : s.trace <:+ t.trace
  restarted : s.dhcp.state = .bound → t.dhcp.state = .renewing → Restarted t.dhcp.backoff
  sent : s.dhcp.state = .renewing → Restarted s.dhcp.backoff → Sent .renew s t

/-- One call of the client in a reachable state, with no ACK in its queue. -/
theorem dhcpTask_advanced (h : Reaches Op.exec (fun _ _ => True) (booted application time entropy) s) (hno : NoAck s) :
    wp dhcpTask (fun _ t => Advanced s t) (fun _ _ => True) s := by
  obtain ⟨limit, held, hs⟩ := reaches_intact False h fun hfalse => hfalse.elim
  have hsent : wp dhcpTask (fun _ t => s.dhcp.state = .renewing → Restarted s.dhcp.backoff → Sent .renew s t)
      (fun _ _ => True) s := by
    by_cases hdue : s.dhcp.state = .renewing ∧ Restarted s.dhcp.backoff
    · obtain ⟨hstate, hrestarted⟩ := hdue
      have htype : packetOf s.dhcp.state = some .renew := by
        rw [hstate]
        rfl
      apply wp_next (dhcpTask_at_once htype (backoffTimeout_of_restarted hrestarted s.time))
      intro _ t ht _ _
      exact ht
    · apply wp_next (wp_true dhcpTask)
      intro _ t _ hstate hrestarted
      exact absurd ⟨hstate, hrestarted⟩ hdue
  have hkept : KeepsApplication False dhcpTask := dhcpTask_keepsApplication
  apply wp_partial (wp_and (wp_and (dhcpTask_refines hs) (dhcpTask_backoff hs)) (wp_and hsent (hkept s)))
  rintro _ t ⟨⟨hrefines, hbackoff⟩, hrenew, hframe⟩
  have hdhcp := congrArg Client.dhcp hrefines.client
  have hmoved : Moved (client s).dhcp s.time (client t).dhcp := by
    rw [hdhcp]
    exact task_moved hno
  refine ⟨⟨hmoved.began, hmoved.leaseTime, hmoved.renewing, hmoved.rebinding, hmoved.seeking⟩, hrefines.host.time,
    hframe.trace, ?_, hrenew⟩
  intro hbound hrenewing
  have hstate := congrArg Dhcp.state hdhcp
  rw [hbackoff]
  exact bound_restarted hbound (hstate.symm.trans hrenewing)

/-- The clock stands, and nothing that has happened is taken back. -/
structure Later (s t : Stack) : Prop where
  time : t.time = s.time
  trace : s.trace <:+ t.trace

theorem Later.of_client (h : ClientFrame False s t) : Later s t := by
  obtain ⟨new, htrace, _⟩ := h.trace
  exact ⟨congrArg (·.2.2.2.2.2.2.1) h.configured, new, htrace.symm⟩

theorem udpListen_later (port : Port) (maxPacketCount : Int) :
    wp (udpListen port maxPacketCount) (fun _ t => Later s t) (fun _ _ => True) s := by
  unfold udpListen
  simp only [wp_bind, wp_get]
  split
  · trivial
  · exact ⟨rfl, List.suffix_rfl⟩

/-- The other operations take nothing back, and keep the clock unless they set it. -/
theorem exec_later (hruns : ¬ Op.RunsDhcp op) (htick : ∀ now, op ≠ .tick now) :
    wp op.exec (fun _ t => Later s t) (fun _ _ => True) s := by
  have hspares : ∀ {α : Type} {x : Net α}, Spares False x → wp x (fun _ t => Later s t) (fun _ _ => True) s :=
    fun hx => wp_partial (hx s) fun _ _ => .of_client
  cases op with
  | receiveDone slot status bytes => exact hspares (gmacReceiveDone_spares slot status bytes)
  | transmitDone slot => exact ⟨rfl, List.suffix_rfl⟩
  | transmitStatus tsr => exact ⟨rfl, List.suffix_rfl⟩
  | tick now => exact absurd rfl (htick now)
  | receive => exact hspares (.bind receivePacket_spares fun _ => .pure _)
  | arpTask => exact hspares arpTask_spares
  | sendToIp bytes ip => exact hspares (sendToIp_spares bytes ip)
  | udpListen port maxPacketCount => exact udpListen_later port maxPacketCount
  | udpSend data size sourcePort destPort ip => exact hspares (udpSend_spares data size sourcePort destPort ip)
  | udpReceive size port => exact hspares (.bind (udpReceive_spares size port) fun _ => .pure _)
  | dhcpStart => exact absurd trivial hruns
  | dhcpTask => exact absurd trivial hruns
  | dhcpRelease =>
    apply wp_partial (dhcpSendPacket_frame .release s)
    intro _ t ht
    obtain ⟨new, htrace, _⟩ := ht.trace
    have hunsent := ht.unsent
    simp only [unsent, Prod.mk.injEq] at hunsent
    obtain ⟨_, _, _, _, _, _, _, htime, _⟩ := hunsent
    exact ⟨htime, new, htrace.symm⟩
  | downloadFile filename serverIp =>
    simp only [Op.exec, downloadFile, tftpDownloadFile, wp_bind, wp_get, wp_pure, wp_modify]
    exact wp_next (udpListen_later _ _) fun _ _ ht => ⟨ht.time, ht.trace⟩
  | readFile size =>
    simp only [Op.exec, readFile, wp_bind, wp_get, wp_modify]
    exact wp_next (hspares (tftpRead_spares _ size)) fun _ _ ht => ⟨ht.time, ht.trace⟩
  | abortDownload errorMessage =>
    simp only [Op.exec, wp_bind, wp_get]
    exact hspares (sendTftpPacket_spares _ _ _)
  | setOurMac mac => exact ⟨rfl, List.suffix_rfl⟩
  | setOurIp ip => exact ⟨rfl, List.suffix_rfl⟩
  | setOurNetmask netmask => exact ⟨rfl, List.suffix_rfl⟩

/-- The thresholds that must have been crossed where the client is in this state. -/
structure Crossed (leaseTime : Time) (elapsed : ℕ) (state : DhcpState) : Prop where
  renewal : state = .renewing ∨ state = .rebinding → (leaseTime / 2).toNat < elapsed
  rebinding : state = .rebinding → (3 * leaseTime / 4).toNat < elapsed

theorem Crossed.later (h : Crossed leaseTime elapsed state) (hle : elapsed ≤ elapsed') :
    Crossed leaseTime elapsed' state where
  renewal hstate := lt_of_lt_of_le (h.renewal hstate) hle
  rebinding hstate := lt_of_lt_of_le (h.rebinding hstate) hle

theorem renewingExpired_iff (d : Dhcp) (now : Time) :
    renewingExpired d now = true ↔ (d.leaseTime / 2).toNat < (getElapsed d.time now).toNat := by
  simp only [renewingExpired, gt_iff_lt, decide_eq_true_eq, UInt32.lt_iff_toNat_lt]

theorem rebindingExpired_iff (d : Dhcp) (now : Time) :
    rebindingExpired d now = true ↔ (3 * d.leaseTime / 4).toNat < (getElapsed d.time now).toNat := by
  simp only [rebindingExpired, gt_iff_lt, decide_eq_true_eq, UInt32.lt_iff_toNat_lt]

/-- What the code takes for the time that has passed is no more than that. -/
theorem Crossed.moved {d' : Dhcp} (h : Crossed d.leaseTime elapsed d.state) (hmoved : Moved d now d')
    (hle : (getElapsed d.time now).toNat ≤ elapsed) : Crossed d.leaseTime elapsed d'.state := by
  constructor
  · rintro (hrenewing | hrebinding)
    · rcases hmoved.renewing hrenewing with hsame | ⟨_, hexpired⟩
      · exact h.renewal (.inl hsame)
      · exact lt_of_lt_of_le ((renewingExpired_iff d now).mp hexpired) hle
    · rcases hmoved.rebinding hrebinding with hsame | ⟨hrenewing, _⟩
      · exact h.renewal (.inr hsame)
      · exact h.renewal (.inl hrenewing)
  · intro hrebinding
    rcases hmoved.rebinding hrebinding with hsame | ⟨_, hexpired⟩
    · exact h.rebinding hsame
    · exact lt_of_lt_of_le ((rebindingExpired_iff d now).mp hexpired) hle

/-- The client has given up the server of its lease. -/
def GivenUp (state : DhcpState) : Prop := state = .rebinding ∨ state = .discover ∨ state = .requesting

/-- A RENEW is due or has been sent where the client renews its lease, and has been sent where it has given up. -/
structure Attempted (s t : Stack) : Prop where
  renewing : t.dhcp.state = .renewing → Restarted t.dhcp.backoff ∨ Sent .renew s t
  givenUp : GivenUp t.dhcp.state → Sent .renew s t

theorem Moved.givenUp {d' : Dhcp} (h : Moved d now d') (hstate : GivenUp d'.state) :
    d.state = .renewing ∨ GivenUp d.state := by
  rcases hstate with hrebinding | hseeking
  · rcases h.rebinding hrebinding with hsame | ⟨hrenewing, _⟩
    · exact .inr (.inl hsame)
    · exact .inl hrenewing
  · exact h.seeking hseeking

theorem Attempted.poll (h : Attempted s t) (hadvanced : Advanced t u) (hpast : s.trace <:+ t.trace) : Attempted s u := by
  have hsent : t.dhcp.state = .renewing → Sent .renew s u := by
    intro ht
    rcases h.renewing ht with hrestarted | hsent
    · exact (hadvanced.sent ht hrestarted).earlier hpast
    · exact hsent.later hadvanced.trace
  constructor
  · intro hu
    rcases hadvanced.moved.renewing hu with hrenewing | ⟨hbound, _⟩
    · exact .inr (hsent hrenewing)
    · exact .inl (hadvanced.restarted hbound hu)
  · intro hu
    rcases hadvanced.moved.givenUp hu with hrenewing | hgivenUp
    · exact hsent hrenewing
    · exact (h.givenUp hgivenUp).later hadvanced.trace

theorem Attempted.keep (h : Attempted s t) (hdhcp : u.dhcp = t.dhcp) (htrace : t.trace <:+ u.trace) :
    Attempted s u := by
  constructor
  · intro hu
    rw [hdhcp] at hu ⊢
    exact (h.renewing hu).imp_right fun hsent => hsent.later htrace
  · intro hu
    rw [hdhcp] at hu
    exact (h.givenUp hu).later htrace

/-- The lease that began with `s`, some time after. -/
structure Running (s : Stack) (k : Clocked) : Prop where
  reached : ∃ application time entropy, Reaches Op.exec (fun _ _ => True) (booted application time entropy) k.stack
  clock : k.stack.time = s.dhcp.time + UInt32.ofNat k.elapsed
  began : k.stack.dhcp.time = s.dhcp.time
  leaseTime : k.stack.dhcp.leaseTime = s.dhcp.leaseTime
  trace : s.trace <:+ k.stack.trace
  crossed : Crossed s.dhcp.leaseTime k.elapsed k.stack.dhcp.state
  attempted : Attempted s k.stack

/-- The difference that the code computes, where the counter has not wrapped and where it has. -/
theorem Running.getElapsed_eq (h : Running s k) :
    (getElapsed k.stack.dhcp.time k.stack.time).toNat = k.elapsed % 2 ^ 32 := by
  rw [h.began, h.clock]
  simp only [getElapsed, UInt32.toNat_sub, UInt32.toNat_add, UInt32.toNat_ofNat']
  have hbegan := s.dhcp.time.toNat_lt
  omega

/-- A step that is no poll. -/
theorem Running.other (h : Running s k) {t : Stack}
    (hreached : Reaches Op.exec (fun _ _ => True) (booted application time entropy) t) (hdhcp : t.dhcp = k.stack.dhcp)
    (hlater : Later k.stack t) : Running s { k with stack := t } where
  reached := ⟨application, time, entropy, hreached⟩
  clock := hlater.time.trans h.clock
  began := (congrArg Dhcp.time hdhcp).trans h.began
  leaseTime := (congrArg Dhcp.leaseTime hdhcp).trans h.leaseTime
  trace := h.trace.trans hlater.trace
  crossed := by
    rw [hdhcp]
    exact h.crossed
  attempted := h.attempted.keep hdhcp hlater.trace

/-- A call of the client keeps to the schedule. -/
theorem Running.poll (h : Running s k) {t : Stack}
    (hreached : Reaches Op.exec (fun _ _ => True) (booted application time entropy) t)
    (hadvanced : Advanced k.stack t) : Running s { k with stack := t } where
  reached := ⟨application, time, entropy, hreached⟩
  clock := hadvanced.time.trans h.clock
  began := hadvanced.moved.began.trans h.began
  leaseTime := hadvanced.moved.leaseTime.trans h.leaseTime
  trace := h.trace.trans hadvanced.trace
  crossed := by
    have hcrossed := h.crossed
    rw [← h.leaseTime] at hcrossed ⊢
    apply hcrossed.moved hadvanced.moved
    rw [h.getElapsed_eq]
    exact Nat.mod_le _ _
  attempted := h.attempted.poll hadvanced h.trace

theorem Running.wait (h : Running s k) (milliseconds : ℕ) :
    Running s { stack := { k.stack with time := k.stack.time + UInt32.ofNat milliseconds }
                elapsed := k.elapsed + milliseconds } := by
  obtain ⟨application, time, entropy, hreach⟩ := h.reached
  have htick : Reaches Op.exec (fun _ _ => True) (booted application time entropy)
      { k.stack with time := k.stack.time + UInt32.ofNat milliseconds } :=
    hreach.step (.tick (k.stack.time + UInt32.ofNat milliseconds)) trivial rfl
  refine ⟨⟨application, time, entropy, htick⟩, ?_, h.began, h.leaseTime, h.trace, ?_,
    h.attempted.keep rfl List.suffix_rfl⟩
  · change k.stack.time + UInt32.ofNat milliseconds = s.dhcp.time + UInt32.ofNat (k.elapsed + milliseconds)
    rw [h.clock, UInt32.ofNat_add, UInt32.add_assoc]
  · exact h.crossed.later (Nat.le_add_right _ _)

/-- The run of a lease that begins now, up to the next ACK. -/
theorem running_of_after (h : Reaches Op.exec (fun _ _ => True) (booted application time entropy) s)
    (hbound : s.dhcp.state = .bound) (hbegins : s.time = s.dhcp.time) (hafter : After NoAck s k) : Running s k := by
  apply hafter.invariant
  · refine ⟨⟨application, time, entropy, h⟩, ?_, rfl, rfl, List.suffix_rfl, ?_, ?_⟩
    · rw [hbegins]
      simp
    · rw [hbound]
      constructor
      · rintro (h | h)
        · cases h
        · cases h
      · rintro ⟨⟩
    · constructor
      · simp [hbound]
      · simp [hbound, GivenUp]
  · intro k passing _ hrunning hallowed
    obtain ⟨application, time, entropy, hreach⟩ := hrunning.reached
    cases passing with
    | wait milliseconds => exact hrunning.wait milliseconds
    | call op =>
      have hnext : wp op.exec (fun _ t => Reaches Op.exec (fun _ _ => True) (booted application time entropy) t)
        (fun _ _ => True) k.stack := hreach.next trivial
      simp only [Passing.exec, wp_onPart]
      by_cases hruns : Op.RunsDhcp op
      · cases op with
        | dhcpTask =>
          apply wp_partial (wp_and hnext (dhcpTask_advanced hreach hallowed))
          rintro _ t ⟨ht, hadvanced⟩
          exact hrunning.poll ht hadvanced
        | dhcpStart => exact hallowed.elim
        | _ => exact hruns.elim
      · have htick : ∀ now, op ≠ .tick now := by
          rintro now rfl
          exact hallowed
        apply wp_partial (wp_and hnext (wp_and (exec_dhcp hruns) (exec_later hruns htick)))
        rintro _ t ⟨ht, hdhcp, hlater⟩
        exact hrunning.other ht hdhcp hlater

/-- A stricter condition on the polls. -/
theorem After.mono {polls polls' : Stack → Prop} (h : After polls s k) (hpolls : ∀ t, polls t → polls' t) :
    After polls' s k := by
  apply Reaches.mono h
  intro k passing hallowed
  cases passing with
  | wait _ => trivial
  | call op => cases op <;> first | exact hallowed | exact hpolls _ hallowed

end MiniIp.Invariant
