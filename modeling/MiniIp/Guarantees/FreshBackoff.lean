import MiniIp.Invariant.Attempts
import MiniIp.Invariant.DhcpServer
import MiniIp.Invariant.Replies

/-!
# The first packet of a state

Where `dhcp_start` or `dhcp_task` moves the client into a state in which it sends, the timeouts are started again, so that
the next call sends. The edge from `DHCP_RENEWING` to `DHCP_DISCOVER` (dhcp.c:468) is the one that forgets: after a
NACK the client waits until the timeout of its last RENEW has passed.
-/

set_option autoImplicit false

namespace MiniIp.Guarantees.FreshBackoff

open MiniIp.Source MiniIp.Invariant MiniIp.Library.Runs MiniIp.Library.Wp

/-- If the client has gone over to a state in which it sends, the timeouts have been started, and the next call of
`dhcp_task` sends the packet of that state, whenever it comes. -/
def FreshEntry (s t : Stack) : Prop :=
  ∀ type, packetOf t.dhcp.state = some type → t.dhcp.state ≠ s.dhcp.state →
    Restarted t.dhcp.backoff ∧
      ∀ u, Reaches Op.exec (fun _ op => ¬ Op.RunsDhcp op) t u →
        wp dhcpTask (fun _ v => Sent type u v) (fun _ _ => True) u

/-- The call reads a NACK while the client renews its lease. -/
def RenewalRefused (s : Stack) (op : Op) : Prop :=
  op = .dhcpTask ∧ s.dhcp.state = .renewing ∧
    ∃ p serverIp, headDatagram s dhcpClientPort = some p ∧ NackFor (client s) s.ourMac p serverIp

variable {application : Application} {time : Time} {entropy : ℕ → UInt32} {s t : Stack} {op : Op} {c : Client}
  {ourMac : Mac} {now : Time} {head : Option NetworkPacket} {backoff : Backoff} {random : UInt32}
  {type : DhcpPacketType}

theorem restarted_reset (backoff : Backoff) : Restarted (backoffReset backoff) := ⟨rfl, rfl⟩

/-- Between two calls of the client nothing changes, and the packet is due whatever the time. -/
theorem freshEntry_of_restarted (h : Restarted t.dhcp.backoff) : FreshEntry s t := by
  intro type htype _
  refine ⟨h, ?_⟩
  intro u hlater
  have hsame : u.dhcp = t.dhcp := by
    apply hlater.invariant (I := fun u => u.dhcp = t.dhcp) rfl
    intro u op _ hu hop
    apply wp_next (exec_dhcp hop)
    intro _ v hv
    rw [hv, hu]
  have hdue : backoffTimeout u.dhcp.backoff u.time = true := by
    rw [hsame]
    exact backoffTimeout_of_restarted h u.time
  apply dhcpTask_at_once _ hdue
  rw [hsame]
  exact htype

theorem discover_state (hoffer : (c.discover ourMac head).2 ≠ .offer) :
    (c.discover ourMac head).1.dhcp.state = c.dhcp.state := by
  unfold Client.discover at hoffer ⊢
  rcases tryReadOffer_cases c ourMac head with ⟨o, hread⟩ | ⟨_, _, _, _, _, hread⟩
  · rw [hread]
    rfl
  · rw [hread] at hoffer
    exact absurd rfl hoffer

/-- From `DHCP_REQUESTING` the client goes back only by a NACK. -/
theorem requesting_state (hnack : (c.requesting ourMac now head).2 ≠ .nack) :
    (c.requesting ourMac now head).1.dhcp.state = c.dhcp.state ∨
      (c.requesting ourMac now head).1.dhcp.state = .bound := by
  unfold Client.requesting at hnack ⊢
  rcases tryReadAck_cases c ourMac now head with ⟨o, outcome, hack, _, hread⟩ | ⟨_, _, _, _, _, hread⟩
  · rw [hread, if_neg hack] at hnack ⊢
    split at hnack
    · exact absurd rfl hnack
    · next hother =>
      rw [if_neg hother]
      exact .inl rfl
  · rw [hread]
    exact .inr rfl

/-- From `DHCP_RENEWING` a state in which the client sends is reached only by a NACK. -/
theorem renewing_enters (hstate : c.dhcp.state = .renewing)
    (htype : packetOf (c.task ourMac now head).1.dhcp.state = some type)
    (hne : (c.task ourMac now head).1.dhcp.state ≠ c.dhcp.state) :
    ∃ p serverIp, head = some p ∧ NackFor c ourMac p serverIp := by
  have hawaits : Awaits c := .inr hstate
  by_cases hack : ((timed c now).tryReadAck ourMac now head).2 = .ack
  · rw [task_bound hawaits hack] at htype
    cases htype
  by_cases hnack : ((timed c now).tryReadAck ourMac now head).2 = .nack
  · obtain ⟨p, serverIp, hhead, hnackFor⟩ := tryReadAck_nack_iff.mp hnack
    exact ⟨p, serverIp, hhead, (nackFor_timed serverIp).mp hnackFor⟩
  · have hkept := congrArg Config.state (task_nothing hawaits hack hnack)
    simp only [config] at hkept
    rw [hkept] at htype hne
    unfold timed at htype hne
    split at htype
    · cases htype
    · next hrunning =>
      rw [if_neg hrunning] at hne
      exact absurd rfl hne

/-- The timeouts are started on every other edge into a state in which the client sends. -/
theorem task_restarted (hstate : c.dhcp.state ≠ .renewing)
    (htype : packetOf (c.task ourMac now head).1.dhcp.state = some type)
    (hne : (c.task ourMac now head).1.dhcp.state ≠ c.dhcp.state) :
    Restarted (c.backoff backoff now random (c.task ourMac now head).2) := by
  unfold Client.backoff
  unfold Client.task at htype hne ⊢
  cases hc : c.dhcp.state with
  | disabled => simp [hc] at hne
  | error => simp [hc] at hne
  | discover =>
    simp only [hc] at hne ⊢
    by_cases hoffer : (c.discover ourMac head).2 = .offer
    · rw [if_pos hoffer]
      exact restarted_reset _
    · rw [discover_state hoffer, hc] at hne
      exact absurd rfl hne
  | requesting =>
    simp only [hc] at htype hne ⊢
    by_cases hnack : (c.requesting ourMac now head).2 = .nack
    · rw [if_pos hnack]
      exact restarted_reset _
    · rcases requesting_state hnack with hsame | hbound
      · rw [hsame, hc] at hne
        exact absurd rfl hne
      · rw [hbound] at htype
        cases htype
  | bound =>
    simp only [hc] at hne ⊢
    split
    · exact restarted_reset _
    · next hearly => simp [hearly, hc] at hne
  | renewing => exact absurd hc hstate
  | rebinding =>
    simp only [hc] at hne ⊢
    split
    · exact restarted_reset _
    · next hearly =>
      rw [if_neg hearly, hc] at hne
      exact absurd rfl hne

/-- The client enters a state in which it sends with the timeouts started and its first packet due, unless a NACK has
taken it from `DHCP_RENEWING` to `DHCP_DISCOVER`. -/
theorem fresh_entry_iff (h : Reaches Op.exec (fun _ _ => True) (booted application time entropy) s)
    (hruns : Op.RunsDhcp op) :
    wp op.exec (fun _ t => FreshEntry s t ↔ ¬ RenewalRefused s op) (fun _ _ => True) s := by
  obtain ⟨limit, held, hs⟩ := reaches_intact False h fun hfalse => hfalse.elim
  cases op with
  | dhcpStart =>
    simp only [Op.exec, dhcpStart, setDhcpState, wp_bind, wp_modifyDhcp, wp_emit, wp_random, wp_getTime]
    apply wp_next (udpListen_elsewhere _ _)
    intro _ t ht
    have hrestarted : Restarted t.dhcp.backoff := by
      rw [ht.backoff]
      exact restarted_reset _
    refine iff_of_true (freshEntry_of_restarted hrestarted) ?_
    rintro ⟨⟨⟩, _⟩
  | dhcpTask =>
    apply wp_partial (wp_and (dhcpTask_refines hs) (dhcpTask_backoff hs))
    rintro _ t ⟨hrefines, hbackoff⟩
    have hstate : t.dhcp.state = _ := congrArg (fun c => c.dhcp.state) hrefines.client
    have hbefore : (client s).dhcp.state = s.dhcp.state := rfl
    constructor
    · rintro hfresh ⟨_, hrenewing, p, serverIp, hhead, hnack⟩
      have hdiscover : t.dhcp.state = .discover := by
        rw [hstate, hhead]
        exact (task_discover_iff (.inr hrenewing) s.ourMac s.time p).mpr ⟨serverIp, hnack⟩
      have hne : t.dhcp.state ≠ s.dhcp.state := by
        rw [hdiscover, hrenewing]
        simp
      obtain ⟨⟨hcount, _⟩, _⟩ := hfresh .discover (by rw [hdiscover]; rfl) hne
      rw [hbackoff, Client.backoff, hbefore, hrenewing] at hcount
      exact sent_count _ _ _ hcount
    · intro hno type htype hne
      have hrestarted : Restarted t.dhcp.backoff := by
        rw [hstate] at htype hne
        rw [hbackoff]
        apply task_restarted _ htype hne
        intro hrenewing
        exact hno ⟨rfl, hrenewing, renewing_enters hrenewing htype hne⟩
      exact freshEntry_of_restarted hrestarted type htype hne
  | _ => exact hruns.elim

/-- An offer takes the client to `DHCP_REQUESTING`, and the next call sends its REQUEST. -/
theorem fresh_entry_requesting :
    ∃ s t, Reaches Op.exec (fun _ _ => True) (booted zeroApplication 0 fun _ => 0) s ∧ s.dhcp.state = .discover ∧
      dhcpTask s = .ok () t ∧ t.dhcp.state = .requesting ∧ FreshEntry s t := by
  have hrun : runs Op.exec (fun _ _ => true)
      (fun s => s.dhcp.state = .discover ∧ returnsWith (fun t => t.dhcp.state = .requesting) dhcpTask s = true)
      (receivesReply (replyOptions dhcpMessageTypeOffer)) (booted zeroApplication 0 fun _ => 0) = true := by
    decide +kernel
  obtain ⟨s, hreach, hcheck⟩ := reaches_of_runs (fun _ _ => True) .start (fun _ _ _ _ => trivial) hrun
  obtain ⟨hstate, hreturns⟩ := of_decide_eq_true hcheck
  obtain ⟨_, t, ht, hrequesting⟩ := returns_of_wp (wp_of_returnsWith hreturns)
  have hruns : Op.RunsDhcp .dhcpTask := trivial
  have hiff := wp_ok (fresh_entry_iff hreach hruns) ht
  refine ⟨s, t, hreach, hstate, ht, of_decide_eq_true hrequesting, hiff.mpr ?_⟩
  rintro ⟨_, hrenewing, _⟩
  rw [hstate] at hrenewing
  cases hrenewing

/-- The client renews its lease, and a NACK with a lease time arrives. -/
def refusesRenewal : List Op :=
  getsLease ++ [.tick 60000, .dhcpTask, .dhcpTask,
    .deliverUdp 2 dhcpServerPort dhcpClientPort (serverReply dhcpMessageTypeNack), .receive]

/-- The client has gone back to `DHCP_DISCOVER`, and the next call sends nothing. -/
def waitsAfterwards (s : Stack) : Bool :=
  s.dhcp.state = .discover ∧ s.dhcp.backoff.count ≠ 0 ∧
    returnsWith (fun t => t.dhcp.state = .discover ∧ t.trace.length = s.trace.length) dhcpTask s = true

/-- After the NACK the client does not look for a server at once. -/
theorem discover_not_fresh :
    ∃ s t u, Reaches Op.exec (fun _ _ => True) (booted zeroApplication 0 fun _ => 0) s ∧ s.dhcp.state = .renewing ∧
      dhcpTask s = .ok () t ∧ t.dhcp.state = .discover ∧ ¬ Restarted t.dhcp.backoff ∧
      dhcpTask t = .ok () u ∧ ¬ Sent .discover t u := by
  have hrun : runs Op.exec (fun _ _ => true)
      (fun s => s.dhcp.state = .renewing ∧ returnsWith waitsAfterwards dhcpTask s = true) refusesRenewal
      (booted zeroApplication 0 fun _ => 0) = true := by
    decide +kernel
  obtain ⟨s, hreach, hcheck⟩ := reaches_of_runs (fun _ _ => True) .start (fun _ _ _ _ => trivial) hrun
  obtain ⟨hstate, hreturns⟩ := of_decide_eq_true hcheck
  obtain ⟨_, t, ht, hwaits⟩ := returns_of_wp (wp_of_returnsWith hreturns)
  obtain ⟨hdiscover, hcount, hnext⟩ := of_decide_eq_true hwaits
  obtain ⟨_, u, hu, hlast⟩ := returns_of_wp (wp_of_returnsWith hnext)
  obtain ⟨_, hlength⟩ := of_decide_eq_true hlast
  refine ⟨s, t, u, hreach, hstate, ht, hdiscover, fun hrestarted => hcount hrestarted.1, hu, ?_⟩
  rintro ⟨new, htrace, hsent⟩
  rw [htrace, List.length_append] at hlength
  obtain rfl : new = [] := List.length_eq_zero_iff.mp (by omega)
  cases hsent

end MiniIp.Guarantees.FreshBackoff
