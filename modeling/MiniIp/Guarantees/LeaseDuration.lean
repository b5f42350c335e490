import MiniIp.Invariant.DhcpServer
import MiniIp.Invariant.LeaseTimers
import MiniIp.Invariant.Steady

/-!
# How long a lease lasts

`try_read_ack` converts the lease time to milliseconds by a 32-bit multiplication (dhcp.c:386), and
`rebinding_expired` multiplies that by three (dhcp.c:400). Both products wrap. A lease of 4294968 seconds or more is
renewed before half of it has passed. A lease of 1431655766 milliseconds or more, 17 days, has its rebinding threshold
at less than three quarters.

The ACK that grants a lease is one by the reading of `dhcp_read` (`AckFor`). Where its options begin with a pad, its
lease time by their grammar may be another one.
-/

set_option autoImplicit false

namespace MiniIp.Guarantees.LeaseDuration

open MiniIp.Source MiniIp.Invariant MiniIp.Library.Runs MiniIp.Library.Wp

/-- A lease of so many seconds, which begins with `s`, is neither renewed before half of it has passed nor lost before
all of it has. -/
def NotCutShort (seconds : Time) (s : Stack) : Prop :=
  ∀ k, After NoPacket s k → k.elapsed < 2 ^ 32 →
    (k.stack.dhcp.state ≠ .bound → 1000 * seconds.toNat / 2 ≤ k.elapsed) ∧
      (k.stack.dhcp.state = .discover → 1000 * seconds.toNat ≤ k.elapsed)

/-- The thresholds of a lease of so many milliseconds are in order, and so are the states of every run. -/
structure TimersOrdered (leaseTime : Time) : Prop where
  renewal_le : leaseTime / 2 ≤ 3 * leaseTime / 4
  rebinding_le : 3 * leaseTime / 4 ≤ leaseTime
  rebinding_eq : (3 * leaseTime / 4).toNat = 3 * leaseTime.toNat / 4
  rebinding : ∀ application time entropy s k, Reaches Op.exec (fun _ _ => True) (booted application time entropy) s →
    s.dhcp.state = .bound → s.time = s.dhcp.time → s.dhcp.leaseTime = leaseTime → After NoAck s k →
    k.stack.dhcp.state = .rebinding → 3 * leaseTime.toNat / 4 < k.elapsed
  attempted : ∀ application time entropy s k, Reaches Op.exec (fun _ _ => True) (booted application time entropy) s →
    s.dhcp.state = .bound → s.time = s.dhcp.time → s.dhcp.leaseTime = leaseTime → After NoAck s k →
    GivenUp k.stack.dhcp.state → Sent .renew s k.stack

variable {application : Application} {time : Time} {entropy : ℕ → UInt32} {s t : Stack} {p : NetworkPacket}
  {seconds leaseTime : Time} {c : Client} {ourMac : Mac} {now : Time} {k : Clocked}

theorem dhcpTask_granted (h : Reaches Op.exec (fun _ _ => True) (booted application time entropy) s)
    (hstate : s.dhcp.state = .requesting ∨ s.dhcp.state = .renewing)
    (hhead : headDatagram s dhcpClientPort = some p) (hack : AckFor (client s) s.ourMac p seconds) :
    wp dhcpTask
      (fun _ t => Reaches Op.exec (fun _ _ => True) (booted application time entropy) t ∧ t.dhcp.state = .bound ∧
        t.time = t.dhcp.time ∧ t.dhcp.leaseTime = seconds * 1000)
      (fun _ _ => True) s := by
  obtain ⟨limit, held, hs⟩ := reaches_intact False h fun hfalse => hfalse.elim
  have hnext : wp (Op.exec .dhcpTask) (fun _ t => Reaches Op.exec (fun _ _ => True) (booted application time entropy) t)
    (fun _ _ => True) s := h.next trivial
  apply wp_partial (wp_and hnext (dhcpTask_refines hs))
  rintro _ t ⟨ht, hrefines⟩
  have hclient := hrefines.client
  have hawaits : Awaits (client s) := hstate
  rw [hhead] at hclient
  have hgranted : (client t).dhcp.state = .bound ∧ (client t).dhcp.time = s.time ∧
      (client t).dhcp.leaseTime = seconds * 1000 := by
    rw [hclient]
    exact task_granted hawaits hack
  obtain ⟨hbound, hbegan, hlease⟩ := hgranted
  exact ⟨ht, hbound, hrefines.host.time.trans hbegan.symm, hlease⟩

/-- A client with a lease loses it by expiry only. -/
theorem task_none (hdone : dhcpIsDone c.dhcp = true) :
    dhcpIsDone (c.task ourMac now none).1.dhcp = true ∨ (c.task ourMac now none).1.dhcp.state = .discover ∧
      c.dhcp.state = .rebinding ∧ c.dhcp.leaseTime ≤ getElapsed c.dhcp.time now := by
  simp only [dhcpIsDone, decide_eq_true_eq] at hdone
  rcases hdone with hstate | hstate | hstate
  · left
    simp only [Client.task, hstate]
    split
    · rfl
    · simp [dhcpIsDone, hstate]
  · left
    simp only [Client.task, hstate, Client.renewing]
    split
    · rfl
    · simp [Client.renew, Client.tryReadAck, Client.read, dhcpIsDone, hstate]
  · simp only [Client.task, hstate]
    split
    · next hexpired => exact .inr ⟨rfl, trivial, hexpired⟩
    · left
      simp [dhcpIsDone, hstate]

theorem task_none_discover (hstate : c.dhcp.state = .discover) :
    (c.task ourMac now none).1.dhcp.state = .discover := by
  simp [Client.task, hstate, Client.discover, Client.tryReadOffer, Client.read]

/-- The lease is still there, or all of it has passed. -/
def Lasts (leaseTime : Time) (k : Clocked) : Prop :=
  dhcpIsDone k.stack.dhcp = true ∨
    k.stack.dhcp.state = .discover ∧ (leaseTime / 2).toNat < k.elapsed ∧ leaseTime.toNat ≤ k.elapsed

theorem Running.lasts (h : Running s k) (hlasts : Lasts s.dhcp.leaseTime k)
    (hclient : client t = ((client k.stack).task k.stack.ourMac k.stack.time none).1) :
    Lasts s.dhcp.leaseTime { k with stack := t } := by
  rcases hlasts with hdone | ⟨hdiscover, hpassed⟩
  · have hbefore : dhcpIsDone (client k.stack).dhcp = true := hdone
    have htask : dhcpIsDone (client t).dhcp = true ∨ (client t).dhcp.state = .discover ∧
        (client k.stack).dhcp.state = .rebinding ∧
          (client k.stack).dhcp.leaseTime ≤ getElapsed (client k.stack).dhcp.time k.stack.time := by
      rw [hclient]
      exact task_none hbefore
    rcases htask with hafter | ⟨hdiscover, hrebinding, hexpired⟩
    · exact .inl hafter
    · refine .inr ⟨hdiscover, h.crossed.renewal (.inr hrebinding), ?_⟩
      have hlease : s.dhcp.leaseTime ≤ getElapsed k.stack.dhcp.time k.stack.time := by
        rw [← h.leaseTime]
        exact hexpired
      calc s.dhcp.leaseTime.toNat ≤ (getElapsed k.stack.dhcp.time k.stack.time).toNat := UInt32.le_iff_toNat_le.mp hlease
        _ = k.elapsed % 2 ^ 32 := h.getElapsed_eq
        _ ≤ k.elapsed := Nat.mod_le _ _
  · have hbefore : (client k.stack).dhcp.state = .discover := hdiscover
    have hafter : (client t).dhcp.state = .discover := by
      rw [hclient]
      exact task_none_discover hbefore
    exact .inr ⟨hafter, hpassed⟩

theorem Lasts.later {milliseconds : ℕ} (h : Lasts leaseTime k) :
    Lasts leaseTime { stack := { k.stack with time := now }, elapsed := k.elapsed + milliseconds } := by
  rcases h with hdone | ⟨hdiscover, hrenewal, hexpiry⟩
  · exact .inl hdone
  · exact .inr ⟨hdiscover, Nat.lt_add_right _ hrenewal, Nat.le_add_right_of_le hexpiry⟩

theorem Lasts.keep (h : Lasts leaseTime k) (hdhcp : t.dhcp = k.stack.dhcp) : Lasts leaseTime { k with stack := t } := by
  unfold Lasts
  rw [hdhcp]
  exact h

theorem lasts_of_after (h : Reaches Op.exec (fun _ _ => True) (booted application time entropy) s)
    (hbound : s.dhcp.state = .bound) (hbegins : s.time = s.dhcp.time) (hafter : After NoPacket s k) :
    Lasts s.dhcp.leaseTime k := by
  apply hafter.invariant (I := Lasts s.dhcp.leaseTime)
  · left
    simp [dhcpIsDone, hbound]
  · intro k passing hbefore hlasts hallowed
    have hnow : After NoPacket s k := hbefore
    have hrunning := running_of_after h hbound hbegins (hnow.mono fun _ hnone => hnone.noAck)
    cases passing with
    | wait milliseconds => exact hlasts.later
    | call op =>
      simp only [Passing.exec, wp_onPart]
      by_cases hruns : Op.RunsDhcp op
      · cases op with
        | dhcpTask =>
          obtain ⟨_, _, _, hreach⟩ := hrunning.reached
          have hnone : headDatagram k.stack dhcpClientPort = none := hallowed
          apply wp_next (dhcpTask_client hreach)
          intro _ t ht
          rw [hnone] at ht
          exact Running.lasts hrunning hlasts ht
        | dhcpStart => exact hallowed.elim
        | _ => exact hruns.elim
      · exact wp_next (exec_dhcp hruns) fun _ _ hdhcp => hlasts.keep hdhcp

/-- The lease of a client that has been granted as much as it computes. -/
theorem notCutShort (h : Reaches Op.exec (fun _ _ => True) (booted application time entropy) s)
    (hbound : s.dhcp.state = .bound) (hbegins : s.time = s.dhcp.time)
    (hlease : s.dhcp.leaseTime.toNat = 1000 * seconds.toNat) : NotCutShort seconds s := by
  intro k hafter _
  have hrunning := running_of_after h hbound hbegins (hafter.mono fun _ hnone => hnone.noAck)
  have hhalf : (s.dhcp.leaseTime / 2).toNat = 1000 * seconds.toNat / 2 := by
    rw [UInt32.toNat_div, hlease]
    rfl
  rcases lasts_of_after h hbound hbegins hafter with hdone | ⟨hdiscover, hrenewal, hexpiry⟩
  · constructor
    · intro hne
      simp only [dhcpIsDone, decide_eq_true_eq, hne, false_or] at hdone
      have hcrossed := hrunning.crossed.renewal hdone
      omega
    · intro hdiscover
      simp [dhcpIsDone, hdiscover] at hdone
  · constructor
    · intro _
      omega
    · intro _
      omega

/-- A poll behind the renewal threshold. -/
theorem bound_poll (hbound : s.dhcp.state = .bound) (hexpired : renewingExpired s.dhcp s.time = true) :
    wp dhcpTask (fun _ t => t.dhcp.state = .renewing) (fun _ _ => False) s := by
  simp only [dhcpTask, dhcpBoundTask, setDhcpState, resetDhcpBackoff, hbound, hexpired, if_true, wp_bind, wp_get,
    wp_getTime, wp_modifyDhcp, wp_emit]
  rfl

/-- A client that is polled just behind the threshold renews its lease then. -/
theorem early_renewal (hbound : s.dhcp.state = .bound) (hbegins : s.time = s.dhcp.time) (hnone : NoPacket s) :
    ∃ k, After NoPacket s k ∧ k.stack.dhcp.state = .renewing ∧ k.elapsed = (s.dhcp.leaseTime / 2).toNat + 1 := by
  let elapsed := (s.dhcp.leaseTime / 2).toNat + 1
  let waited : Clocked :=
    { stack := { s with time := s.time + UInt32.ofNat elapsed }, elapsed := 0 + elapsed }
  have hwait : After NoPacket s waited := Reaches.step (.wait elapsed) .start trivial rfl
  have hless : elapsed < 2 ^ 32 := by
    have hlease := s.dhcp.leaseTime.toNat_lt
    simp only [elapsed, UInt32.toNat_div]
    change s.dhcp.leaseTime.toNat / 2 + 1 < 2 ^ 32
    omega
  have hexpired : renewingExpired waited.stack.dhcp waited.stack.time = true := by
    rw [renewingExpired_iff]
    simp only [waited, getElapsed, hbegins]
    have hdifference : s.dhcp.time + UInt32.ofNat elapsed - s.dhcp.time = UInt32.ofNat elapsed := by
      rw [UInt32.add_comm, UInt32.add_sub_cancel]
    rw [hdifference, UInt32.toNat_ofNat_of_lt' hless]
    exact Nat.lt_succ_self _
  obtain ⟨_, t, ht, hrenewing⟩ := returns_of_wp (bound_poll (s := waited.stack) hbound hexpired)
  have hreturned : Passing.exec (.call .dhcpTask) waited = .ok () { waited with stack := t } := by
    simp only [Passing.exec, onPart, Op.exec, ht]
  refine ⟨{ waited with stack := t }, hwait.step (.call .dhcpTask) hnone hreturned, hrenewing, ?_⟩
  exact Nat.zero_add _

/-- What is left of the product. -/
theorem toNat_milliseconds (seconds : Time) : (seconds * 1000).toNat = 1000 * seconds.toNat % 2 ^ 32 := by
  rw [UInt32.toNat_mul, Nat.mul_comm]
  rfl

theorem cut_short (hbound : s.dhcp.state = .bound) (hbegins : s.time = s.dhcp.time) (hnone : NoPacket s)
    (hlease : s.dhcp.leaseTime = seconds * 1000) (hlong : 2 ^ 32 ≤ 1000 * seconds.toNat) : ¬ NotCutShort seconds s := by
  intro hkept
  obtain ⟨k, hafter, hrenewing, helapsed⟩ := early_renewal hbound hbegins hnone
  have hhalf : (s.dhcp.leaseTime / 2).toNat = 1000 * seconds.toNat % 2 ^ 32 / 2 := by
    rw [hlease, UInt32.toNat_div, toNat_milliseconds]
    rfl
  have hne : k.stack.dhcp.state ≠ .bound := by simp [hrenewing]
  have hgranted := (hkept k hafter (by omega)).1 hne
  omega

/-- An accepted ACK begins a lease that lasts as long as it has been granted exactly where its milliseconds fit in
32 bits. The call stops only where a datagram cannot be sent. -/
theorem lease_not_cut_short_iff (h : Reaches Op.exec (fun _ _ => True) (booted application time entropy) s)
    (hstate : s.dhcp.state = .requesting ∨ s.dhcp.state = .renewing)
    (hhead : headDatagram s dhcpClientPort = some p) (hack : AckFor (client s) s.ourMac p seconds) :
    wp dhcpTask
      (fun _ t => (1000 * seconds.toNat ≤ t.dhcp.leaseTime.toNat ↔ 1000 * seconds.toNat < 2 ^ 32) ∧
        (NoPacket t → (NotCutShort seconds t ↔ 1000 * seconds.toNat < 2 ^ 32)))
      (fun _ _ => CannotSend s) s := by
  apply dhcpTask_stopping h
  apply wp_next (dhcpTask_granted h hstate hhead hack)
  rintro _ t ⟨hreach, hbound, hbegins, hlease⟩
  have hproduct : t.dhcp.leaseTime.toNat = 1000 * seconds.toNat % 2 ^ 32 := by rw [hlease, toNat_milliseconds]
  constructor
  · omega
  · intro hnone
    constructor
    · intro hkept
      by_contra hlong
      exact cut_short hbound hbegins hnone hlease (by omega) hkept
    · intro hfits
      exact notCutShort hreach hbound hbegins (by omega)

/-- The options of an ACK of the server at 10.0.0.2 for a lease of so many seconds. -/
def grantOptions (seconds : UInt32) : List UInt8 :=
  messageTypeOption dhcpMessageTypeAck ++ serverIdentifierOption 0x0A000002 ++ leaseTimeOption seconds ++
    subnetMaskOption 0xFFFFFF00

/-- The waiting packet is read as an ACK that grants so many seconds, and no packet is behind it. -/
def grants (seconds : UInt32) (s : Stack) (p : NetworkPacket) : Bool :=
  (s.dhcp.state = .requesting ∧ 240 < p.length) ∧
    ((readDhcpPacket s.dhcp.transactionId s.ourMac p s.options).1 = true ∧
      (readDhcpPacket s.dhcp.transactionId s.ourMac p s.options).2.leaseTime = seconds ∧
      { client s with options := (readDhcpPacket s.dhcp.transactionId s.ourMac p s.options).2 }.answer = .ack) ∧
    returnsWith (fun t => (headDatagram t dhcpClientPort).isNone) dhcpTask s = true

theorem granted_of_runs (hrun : runs Op.exec (fun _ _ => true) (waitsFor (grants seconds))
    (receivesAnswer (grantOptions seconds)) (booted zeroApplication 0 fun _ => 0) = true) :
    ∃ s p t, Reaches Op.exec (fun _ _ => True) (booted zeroApplication 0 fun _ => 0) s ∧ s.dhcp.state = .requesting ∧
      headDatagram s dhcpClientPort = some p ∧ AckFor (client s) s.ourMac p seconds ∧ dhcpTask s = .ok () t ∧
      NoPacket t := by
  obtain ⟨s, p, hreach, hhead, _, _, hcheck⟩ := waiting_of_runs hrun
  obtain ⟨⟨hstate, hlong⟩, ⟨haccepted, hseconds, hanswer⟩, hreturns⟩ := of_decide_eq_true hcheck
  obtain ⟨_, t, ht, hnone⟩ := returns_of_wp (wp_of_returnsWith hreturns)
  refine ⟨s, p, t, hreach, hstate, hhead, ?_, ht, Option.isNone_iff_eq_none.mp hnone⟩
  rw [← hseconds]
  exact ackFor_of_answer hlong (Prod.ext haccepted rfl) hanswer

/-- A lease of 100 seconds. -/
theorem lease_not_cut_short_hundred :
    ∃ s p, AckFor (client s) s.ourMac p 100 ∧ ∃ t, dhcpTask s = .ok () t ∧ NotCutShort 100 t := by
  have hrun : runs Op.exec (fun _ _ => true) (waitsFor (grants 100)) (receivesAnswer (grantOptions 100))
      (booted zeroApplication 0 fun _ => 0) = true := by
    decide +kernel
  obtain ⟨s, p, t, hreach, hstate, hhead, hack, ht, hnone⟩ := granted_of_runs hrun
  have hiff := wp_ok (lease_not_cut_short_iff hreach (.inl hstate) hhead hack) ht
  exact ⟨s, p, hack, t, ht, (hiff.2 hnone).mpr (by decide)⟩

/-- A lease of 4294968 seconds, about 50 days: the client computes 704 milliseconds. -/
theorem lease_cut_short :
    ∃ s p t, Reaches Op.exec (fun _ _ => True) (booted zeroApplication 0 fun _ => 0) s ∧ s.dhcp.state = .requesting ∧
      headDatagram s dhcpClientPort = some p ∧ AckFor (client s) s.ourMac p 4294968 ∧ dhcpTask s = .ok () t ∧
      t.dhcp.leaseTime = 704 ∧ ¬ NotCutShort 4294968 t := by
  have hrun : runs Op.exec (fun _ _ => true) (waitsFor (grants 4294968)) (receivesAnswer (grantOptions 4294968))
      (booted zeroApplication 0 fun _ => 0) = true := by
    decide +kernel
  obtain ⟨s, p, t, hreach, hstate, hhead, hack, ht, hnone⟩ := granted_of_runs hrun
  obtain ⟨_, hbound, hbegins, hlease⟩ := wp_ok (dhcpTask_granted hreach (.inl hstate) hhead hack) ht
  refine ⟨s, p, t, hreach, hstate, hhead, hack, ht, ?_, cut_short hbound hbegins hnone hlease (by decide)⟩
  rw [hlease]
  decide

/-- The rebinding threshold is exact as long as three times the lease fits in 32 bits. -/
theorem toNat_rebinding (leaseTime : Time) : (3 * leaseTime / 4).toNat = 3 * leaseTime.toNat % 2 ^ 32 / 4 := by
  rw [UInt32.toNat_div, UInt32.toNat_mul]
  rfl

theorem toNat_renewal (leaseTime : Time) : (leaseTime / 2).toNat = leaseTime.toNat / 2 := UInt32.toNat_div _ _

/-- The timers of a lease are ordered exactly where three times its milliseconds fit in 32 bits. -/
theorem timers_ordered_iff (leaseTime : Time) : TimersOrdered leaseTime ↔ 3 * leaseTime.toNat < 2 ^ 32 := by
  constructor
  · intro hordered
    have hexact := hordered.rebinding_eq
    rw [toNat_rebinding] at hexact
    omega
  · intro hfits
    have hexact : (3 * leaseTime / 4).toNat = 3 * leaseTime.toNat / 4 := by
      rw [toNat_rebinding, Nat.mod_eq_of_lt hfits]
    have hrenewal := toNat_renewal leaseTime
    constructor
    · rw [UInt32.le_iff_toNat_le]
      omega
    · rw [UInt32.le_iff_toNat_le]
      omega
    · exact hexact
    · intro application time entropy s k hreach hbound hbegins hlease hafter hrebinding
      have hcrossed := (running_of_after hreach hbound hbegins hafter).crossed.rebinding hrebinding
      rw [hlease] at hcrossed
      omega
    · intro application time entropy s k hreach hbound hbegins _ hafter hgivenUp
      exact (running_of_after hreach hbound hbegins hafter).attempted.givenUp hgivenUp

/-- Check an operation after the ACK: time passes, or the client is polled and finds no packet. -/
def pollGuard (k : Clocked) : Passing → Bool
  | .wait _ => true
  | .call .dhcpTask => (headDatagram k.stack dhcpClientPort).isNone
  | .call _ => false

theorem noAck_of_guard {passing : Passing} (h : pollGuard k passing = true) : Passing.Allowed NoAck k passing := by
  cases passing with
  | wait milliseconds => trivial
  | call op =>
    cases op with
    | dhcpTask =>
      have hnone : NoPacket k.stack := Option.isNone_iff_eq_none.mp h
      exact hnone.noAck
    | _ => cases h

/-- A lease of 23 days: the client gives up renewing it in the first call after it has begun, after less than 12. -/
theorem timers_out_of_order :
    ∃ s k, Reaches Op.exec (fun _ _ => True) (booted zeroApplication 0 fun _ => 0) s ∧ s.dhcp.state = .bound ∧
      s.time = s.dhcp.time ∧ s.dhcp.leaseTime = 2000000000 ∧ After NoAck s k ∧ k.stack.dhcp.state = .rebinding ∧
      k.elapsed ≤ 3 * 2000000000 / 4 ∧ ¬ TimersOrdered 2000000000 := by
  have hrun : runs Op.exec (fun _ _ => true)
      (fun s => (s.dhcp.state = .bound ∧ s.time = s.dhcp.time ∧ s.dhcp.leaseTime = 2000000000) ∧
        runs Passing.exec pollGuard
          (fun k => k.stack.dhcp.state = .rebinding ∧ k.elapsed = 1000000001)
          [.wait 1000000001, .call .dhcpTask, .call .dhcpTask] ⟨s, 0⟩ = true)
      (receivesAnswer (grantOptions 2000000) ++ [.dhcpTask]) (booted zeroApplication 0 fun _ => 0) = true := by
    decide +kernel
  obtain ⟨s, hreach, hcheck⟩ := reaches_of_runs (fun _ _ => True) .start (fun _ _ _ _ => trivial) hrun
  obtain ⟨⟨hbound, hbegins, hlease⟩, hlater⟩ := of_decide_eq_true hcheck
  obtain ⟨k, hafter, hk⟩ := reaches_of_runs (Passing.Allowed NoAck) .start
    (fun _ _ _ hguard => noAck_of_guard hguard) hlater
  obtain ⟨hrebinding, helapsed⟩ := of_decide_eq_true hk
  have hearly : k.elapsed ≤ 3 * 2000000000 / 4 := by
    rw [helapsed]
    decide
  refine ⟨s, k, hreach, hbound, hbegins, hlease, hafter, hrebinding, hearly, ?_⟩
  intro hordered
  have hlate := hordered.rebinding _ _ _ s k hreach hbound hbegins hlease hafter hrebinding
  have hnat : (2000000000 : Time).toNat = 2000000000 := rfl
  omega

end MiniIp.Guarantees.LeaseDuration
