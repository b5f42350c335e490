import MiniIp.Invariant.DhcpServer
import MiniIp.Invariant.Lease

/-!
# The address of a lost lease

`dhcp_task` sets the address of the host where a lease begins (dhcp.c:446-447) and
nowhere else. A client that loses its lease, in `DHCP_RENEWING` by a NAK or in
`DHCP_REBINDING` by expiry, goes back to `DHCP_DISCOVER` and keeps the address of
the lost lease until it gets another one.
-/

set_option autoImplicit false

namespace MiniIp.Guarantees.LostLease

open MiniIp.Source MiniIp.Invariant MiniIp.Library.Runs MiniIp.Library.Wp

/-- The client has no lease and is looking for one. -/
def Seeking (s : Stack) : Prop := s.dhcp.state = .discover ∨ s.dhcp.state = .requesting

/-- This call of `dhcp_task` loses the lease. -/
structure Loses (s t : Stack) : Prop where
  leased : dhcpIsDone s.dhcp = true
  returned : dhcpTask s = .ok () t
  lost : t.dhcp.state = .discover

variable {application : Application} {time : Time} {entropy : Nat → UInt32} {s t u : Stack}
  {c : Client} {ourMac : Mac} {now : Time} {head : Option NetworkPacket}

theorem discover_ourIp : (c.discover ourMac head).1.ourIp = c.ourIp := by
  unfold Client.discover
  rcases tryReadOffer_cases c ourMac head with ⟨o, hresult⟩ | ⟨p, o, _, _, _, hresult⟩
  · rw [hresult]
    rfl
  · rw [hresult]
    rfl

theorem renew_ourIp : (c.renew ourMac now head).1.ourIp = c.ourIp := by
  unfold Client.renew
  rcases tryReadAck_cases c ourMac now head with ⟨o, outcome, _, _, hresult⟩ | ⟨p, o, _, _, _, hresult⟩
  · rw [hresult]
    dsimp only
    split_ifs
    · rfl
    · rfl
    · rfl
  · rw [hresult]
    rfl

/-- The address is assigned where a lease begins. -/
theorem requesting_ourIp : (c.requesting ourMac now head).1.ourIp = c.ourIp ∨
    (c.requesting ourMac now head).1.dhcp.state = .bound := by
  unfold Client.requesting
  rcases tryReadAck_cases c ourMac now head with ⟨o, outcome, _, _, hresult⟩ | ⟨p, o, _, _, _, hresult⟩
  · rw [hresult]
    dsimp only
    split_ifs
    · exact .inr rfl
    · exact .inl rfl
    · exact .inl rfl
  · rw [hresult]
    exact .inr rfl

theorem task_ourIp : (c.task ourMac now head).1.ourIp = c.ourIp ∨
    (c.task ourMac now head).1.dhcp.state = .bound := by
  unfold Client.task
  cases c.dhcp.state with
  | disabled => exact .inl rfl
  | discover => exact .inl discover_ourIp
  | requesting => exact requesting_ourIp
  | bound =>
    left
    dsimp only
    split
    · rfl
    · rfl
  | renewing =>
    left
    simp only [Client.renewing]
    rw [renew_ourIp]
    split
    · rfl
    · rfl
  | rebinding =>
    left
    dsimp only
    split
    · rfl
    · rfl
  | error => exact .inl rfl

/-- A call of `dhcp_task` that does not begin a lease keeps the address. -/
theorem dhcpTask_ourIp (hintact : Intact False (fun _ _ _ _ => True) s) :
    wp dhcpTask (fun _ t => t.ourIp = s.ourIp ∨ t.dhcp.state = .bound) (fun _ _ => True) s := by
  obtain ⟨limit, lost, hs⟩ := hintact
  apply wp_next (dhcpTask_refines hs)
  intro _ t ht
  have hip : (client t).ourIp = (client s).ourIp ∨ (client t).dhcp.state = .bound := by
    rw [ht.client]
    exact task_ourIp
  exact hip

theorem exec_ourIp {op : Op} (hintact : Intact False (fun _ _ _ _ => True) s) (hop : LeaseRun s op) :
    wp op.exec (fun _ t => t.ourIp = s.ourIp ∨ t.dhcp.state = .bound) (fun _ _ => True) s := by
  by_cases hruns : Op.RunsDhcp op
  · cases op with
    | dhcpStart =>
      simp only [Op.exec, dhcpStart, setDhcpState, wp_bind, wp_modifyDhcp, wp_emit, wp_random, wp_getTime]
      apply wp_next (udpListen_elsewhere _ _)
      intro _ t ht
      have hip : (client t).ourIp = s.ourIp := by
        rw [ht.client]
        rfl
      exact .inl hip
    | dhcpTask => exact dhcpTask_ourIp hintact
    | _ => exact hruns.elim
  · by_cases hconfigures : Op.Configures op
    · cases op with
      | setOurMac mac => exact .inl rfl
      | setOurIp ip => exact hop.elim
      | setOurNetmask netmask => exact hop.elim
      | _ => exact hconfigures.elim
    · apply wp_next (exec_elsewhere hconfigures hruns)
      intro _ t ht
      have hip : (client t).ourIp = (client s).ourIp := by rw [ht.client]
      exact .inl hip

/-- From the loss of a lease until the next one begins, the host uses the address of the lost lease. -/
theorem address_kept (h : Reaches Op.exec LeaseRun (booted application time entropy) s)
    (hloses : Loses s t) (hlater : Reaches Op.exec (fun s op => LeaseRun s op ∧ Seeking s) t u)
    (hseeking : Seeking u) : u.ourIp = s.dhcp.leasedIp := by
  have hintact := reaches_intact False h fun w => w.elim
  have hlost : t.ourIp = s.dhcp.leasedIp := by
    have haddress : s.ourIp = s.dhcp.leasedIp := (reaches_leased h).address hloses.leased
    rcases wp_ok (dhcpTask_ourIp hintact) hloses.returned with hkept | hbound
    · rw [hkept, haddress]
    · rw [hloses.lost] at hbound
      cases hbound
  have hreach : Reaches Op.exec LeaseRun (booted application time entropy) t :=
    h.step .dhcpTask trivial hloses.returned
  have hall : Seeking u → u.ourIp = s.dhcp.leasedIp := by
    apply hlater.invariant (I := fun u => Seeking u → u.ourIp = s.dhcp.leasedIp)
    · exact fun _ => hlost
    · intro u op hbefore hip met
      have hu := hreach.trans (hbefore.mono fun _ _ hok => hok.1)
      apply wp_next (exec_ourIp (reaches_intact False hu fun w => w.elim) met.1)
      intro _ v hv hseeking
      rcases hv with hsame | hbound
      · rw [hsame, hip met.2]
      · rcases hseeking with hdiscover | hrequesting
        · rw [hdiscover] at hbound
          cases hbound
        · rw [hrequesting] at hbound
          cases hbound
  exact hall hseeking

/-- The client gets a lease of 10.0.0.1 for 100 seconds and hears nothing any more. -/
def untilRebinding : List Op :=
  getsLease ++ [.tick 60000, .dhcpTask, .tick 80000, .dhcpTask, .tick 100000]

/-- The last call of `dhcp_task` loses the lease. -/
def losesCheck (s : Stack) : Bool :=
  dhcpIsDone s.dhcp && match dhcpTask s with
    | .ok _ t => t.dhcp.state = .discover
    | .error _ _ => false

theorem loses_of_check (h : losesCheck s = true) : ∃ t, Loses s t := by
  simp only [losesCheck, Bool.and_eq_true] at h
  obtain ⟨hdone, hlost⟩ := h
  split at hlost
  · next t hreturned => exact ⟨t, hdone, hreturned, of_decide_eq_true hlost⟩
  · cases hlost

theorem reaches_loss : ∃ s t, Reaches Op.exec LeaseRun (booted zeroApplication 0 fun _ => 0) s ∧ Loses s t ∧
    s.dhcp.leasedIp = 0x0A000001 := by
  have hrun : runs Op.exec leaseGuard (fun s => s.dhcp.leasedIp = 0x0A000001 ∧ losesCheck s = true)
      untilRebinding (booted zeroApplication 0 fun _ => 0) = true := by
    decide +kernel
  obtain ⟨s, hreach, hcheck⟩ := reaches_of_runs LeaseRun .start
    (fun _ _ _ hguard => leaseRun_of_guard hguard) hrun
  obtain ⟨hip, hloses⟩ := of_decide_eq_true hcheck
  obtain ⟨t, ht⟩ := loses_of_check hloses
  exact ⟨s, t, hreach, ht, hip⟩

theorem address_kept_expired :
    ∃ s t, Reaches Op.exec LeaseRun (booted zeroApplication 0 fun _ => 0) s ∧ Loses s t ∧
      t.ourIp = s.dhcp.leasedIp ∧ s.dhcp.leasedIp = 0x0A000001 := by
  obtain ⟨s, t, hreach, hloses, hip⟩ := reaches_loss
  exact ⟨s, t, hreach, hloses, address_kept hreach hloses .start (.inl hloses.lost), hip⟩

/-- The lease of 10.0.0.1 has expired, and the host still filters by it. -/
theorem expired_address_used :
    ∃ s, Reaches Op.exec LeaseRun (booted zeroApplication 0 fun _ => 0) s ∧ s.dhcp.state = .discover ∧
      s.ourIp = 0x0A000001 ∧ shouldFilterAway s.ourIp 0x0A000005 = true := by
  have hrun : runs Op.exec leaseGuard (fun s => s.dhcp.state = .discover ∧ s.ourIp = 0x0A000001)
      (untilRebinding ++ [.dhcpTask]) (booted zeroApplication 0 fun _ => 0) = true := by
    decide +kernel
  obtain ⟨s, hreach, hcheck⟩ := reaches_of_runs LeaseRun .start
    (fun _ _ _ hguard => leaseRun_of_guard hguard) hrun
  obtain ⟨hstate, hip⟩ := of_decide_eq_true hcheck
  refine ⟨s, hreach, hstate, hip, ?_⟩
  rw [hip]
  decide

end MiniIp.Guarantees.LostLease
