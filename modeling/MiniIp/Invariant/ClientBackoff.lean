import MiniIp.Invariant.DhcpClient

/-!
# The backoff of the DHCP client

A call of `dhcp_task` sends when the timeout has passed, whether or not the packet goes out, and starts the timeouts
again where it leaves a state. So the backoff afterwards is a function of the one before, of the time, of the next
random number and of what has been accepted. The lemmas say so of calls that return.
-/

set_option autoImplicit false

namespace MiniIp.Invariant

open MiniIp.Source MiniIp.Library.Wp

/-- The backoff after a packet that is sent on timeout. -/
def Backoff.sent (backoff : Backoff) (now : Time) (random : UInt32) : Backoff :=
  if backoffTimeout backoff now then nextBackoff backoff now random else backoff

/-- A packet has been sent, now or before. -/
theorem sent_count (backoff : Backoff) (now : Time) (random : UInt32) : (Backoff.sent backoff now random).count ≠ 0 := by
  unfold Backoff.sent
  split
  · have hnext : (nextBackoff backoff now random).count = backoff.count + 1 := by
      unfold nextBackoff
      simp
    omega
  · next hwaits =>
    intro hzero
    apply hwaits
    simp [backoffTimeout, hzero]

/-- The backoff after a call of `dhcp_task` with this outcome. -/
def Client.backoff (c : Client) (backoff : Backoff) (now : Time) (random : UInt32) (outcome : Outcome) :
    Backoff :=
  match c.dhcp.state with
  | .disabled | .error => backoff
  | .discover =>
    if outcome = .offer then backoffReset (Backoff.sent backoff now random)
    else Backoff.sent backoff now random
  | .requesting =>
    if outcome = .nack then backoffReset (Backoff.sent backoff now random)
    else Backoff.sent backoff now random
  | .bound => if renewingExpired c.dhcp now then backoffReset backoff else backoff
  | .renewing => Backoff.sent backoff now random
  | .rebinding => if getElapsed c.dhcp.time now ≥ c.dhcp.leaseTime then backoffReset backoff else backoff

/-- Reading does not touch the backoff. -/
def SameBackoff (s t : Stack) : Prop := t.dhcp.backoff = s.dhcp.backoff

instance : Std.Refl SameBackoff := ⟨fun _ => rfl⟩

instance : IsTrans Stack SameBackoff := ⟨fun _ _ _ h h' => h'.trans h⟩

variable {limit : ℕ} {W : Prop} {U : QueueContent} {held : List PacketId}
  {E : Halt → Stack → Prop} {s t : Stack}

theorem dhcpRead_backoff (h : UdpTable limit s.udp) :
    wp dhcpRead (fun _ t => SameBackoff s t) E s := by
  unfold dhcpRead
  rw [wp_bind, wp_udpReceiveZeroCopy h]
  split
  · exact rfl
  · simp only [wp_bind, wp_getPacket, wp_get, wp_modify, wp_freeNetworkPacket, wp_pure]
    exact rfl

theorem tryReadOffer_backoff (h : UdpTable limit s.udp) :
    wp tryReadOffer (fun _ t => SameBackoff s t) E s := by
  unfold tryReadOffer
  rw [wp_bind]
  apply wp_next (dhcpRead_backoff h)
  intro r t ht
  simp only [wp_ite, wp_pure, wp_bind, wp_get, wp_modifyDhcp, wp_emit]
  split
  · exact ht
  · split
    · exact ht
    · exact ht

theorem tryReadAck_backoff (h : UdpTable limit s.udp) :
    wp tryReadAck (fun _ t => SameBackoff s t) E s := by
  unfold tryReadAck
  rw [wp_bind]
  apply wp_next (dhcpRead_backoff h)
  intro r t ht
  simp only [wp_ite, wp_pure, wp_bind, wp_get, wp_modifyDhcp, wp_emit, wp_getTime]
  split_ifs
  · exact ht
  · exact ht
  · exact ht
  · exact ht
  · exact ht
  · exact ht

/-- The random number is drawn after the packet is sent, and sending draws none. -/
theorem dhcpSendOnTimeout_backoff (type : DhcpPacketType) (s : Stack) :
    wp (dhcpSendOnTimeout type)
      (fun _ t => t.dhcp.backoff = Backoff.sent s.dhcp.backoff s.time (s.entropy s.drawn))
      (fun _ _ => True) s := by
  unfold dhcpSendOnTimeout Backoff.sent
  simp only [wp_bind, wp_get, wp_getTime, wp_ite, wp_pure]
  split
  · simp only [wp_random, wp_modifyDhcp]
    apply wp_mono (dhcpSendPacket_frame type s)
    · intro _ t ht
      have hunsent := ht.unsent
      simp only [unsent, Prod.mk.injEq] at hunsent
      obtain ⟨_, _, _, _, hdhcp, _, _, htime, hentropy, hdrawn, _⟩ := hunsent
      change nextBackoff t.dhcp.backoff t.time (t.entropy t.drawn) = _
      rw [hdhcp, htime, hentropy, hdrawn]
    · intro _ _ _
      trivial
  · rfl

/-- The backoff counts the packet if it has been sent, and nothing else is touched. -/
theorem dhcpSendOnTimeout_sent (h : Sound W U limit held s) (type : DhcpPacketType) :
    wp (dhcpSendOnTimeout type)
      (fun _ t => Untouched s t ∧
        t.dhcp.backoff = Backoff.sent s.dhcp.backoff s.time (s.entropy s.drawn))
      (fun _ _ => True) s := by
  apply wp_partial (wp_and (dhcpSendOnTimeout_untouched h type) (dhcpSendOnTimeout_backoff type s))
  intro _ t ht
  exact ht

/-- The answer to a request, after the request. -/
theorem answer_backoff (h : Sound W U limit held s) (hsent : Untouched s t) :
    wp tryReadAck
      (fun r u => r =
          ((client s).tryReadAck s.ourMac s.time (headDatagram s dhcpClientPort)).2.answer ∧
        u.dhcp.backoff = t.dhcp.backoff)
      (fun _ _ => True) t := by
  have hudp : UdpTable limit t.udp := hsent.udp ▸ h.udp
  apply wp_partial (wp_and (answer_after h.udp hsent) (tryReadAck_backoff (E := fun _ _ => True) hudp))
  intro r u hpost
  exact ⟨hpost.1.2, hpost.2⟩

theorem dhcpRenew_backoff (h : Sound W U limit held s) :
    wp dhcpRenew
      (fun _ t => t.dhcp.backoff = Backoff.sent s.dhcp.backoff s.time (s.entropy s.drawn))
      (fun _ _ => True) s := by
  unfold dhcpRenew setDhcpState
  rw [wp_bind]
  apply wp_next (dhcpSendOnTimeout_sent h .renew)
  intro _ t ht
  obtain ⟨huntouched, hbackoff⟩ := ht
  rw [wp_bind]
  apply wp_next (answer_backoff h huntouched)
  intro r u hpost
  have hkept := hpost.2.trans hbackoff
  cases r with
  | none => exact hkept
  | some accepted =>
    cases accepted with
    | true => exact hkept
    | false => exact hkept

/-- One call, from an intact state. -/
theorem dhcpTask_backoff (h : Sound W U limit held s) :
    wp dhcpTask
      (fun _ t => t.dhcp.backoff = (client s).backoff s.dhcp.backoff s.time (s.entropy s.drawn)
        ((client s).task s.ourMac s.time (headDatagram s dhcpClientPort)).2)
      (fun _ _ => True) s := by
  have hclient : (client s).dhcp.state = s.dhcp.state := rfl
  unfold dhcpTask Client.backoff
  simp only [Client.task, hclient, wp_bind, wp_get]
  cases hstate : s.dhcp.state with
  | disabled => rfl
  | error => rfl
  | discover =>
    simp only [dhcpDiscoverTask, setDhcpState, resetDhcpBackoff, wp_bind]
    apply wp_next (dhcpSendOnTimeout_sent h .discover)
    intro _ t ht
    obtain ⟨huntouched, hbackoff⟩ := ht
    have hu : UdpTable limit t.udp := huntouched.udp ▸ h.udp
    apply wp_partial (wp_and (offer_after h.udp huntouched) (tryReadOffer_backoff (E := fun _ _ => True) hu))
    intro r u hpost
    obtain ⟨⟨_, hr⟩, hsame⟩ := hpost
    simp only [wp_ite, wp_bind, wp_modifyDhcp, wp_emit, wp_pure]
    have hkept : u.dhcp.backoff = Backoff.sent s.dhcp.backoff s.time (s.entropy s.drawn) :=
      hsame.trans hbackoff
    rw [← discover_outcome] at hr
    by_cases hoffer : ((client s).discover s.ourMac (headDatagram s dhcpClientPort)).2 = .offer
    · rw [if_pos (hr.mpr hoffer), if_pos hoffer]
      exact congrArg backoffReset hkept
    · rw [if_neg (mt hr.mp hoffer), if_neg hoffer]
      exact hkept
  | requesting =>
    simp only [dhcpRequestingTask, setDhcpState, resetDhcpBackoff, setOurIp, setOurNetmask, wp_bind]
    apply wp_next (dhcpSendOnTimeout_sent h .request)
    intro _ t ht
    obtain ⟨huntouched, hbackoff⟩ := ht
    apply wp_next (answer_backoff h huntouched)
    intro r u hpost
    obtain ⟨rfl, hsame⟩ := hpost
    have hkept := hsame.trans hbackoff
    simp only [requesting_outcome]
    cases ((client s).tryReadAck s.ourMac s.time (headDatagram s dhcpClientPort)).2 with
    | nothing => exact hkept
    | offer => exact hkept
    | ack => exact hkept
    | nack => exact congrArg backoffReset hkept
  | bound =>
    have hexpired : renewingExpired (client s).dhcp s.time = renewingExpired s.dhcp s.time := rfl
    simp only [dhcpBoundTask, setDhcpState, resetDhcpBackoff, hexpired, wp_bind, wp_get, wp_getTime, wp_ite,
      wp_modifyDhcp, wp_emit, wp_pure]
    split
    · rfl
    · rfl
  | renewing =>
    simp only [dhcpRenewingTask, setDhcpState, wp_bind, wp_get, wp_getTime, wp_ite, wp_modifyDhcp, wp_emit]
    split
    · have hleft : Sound W U limit held (s.setDhcp { s.dhcp with state := .rebinding }) := h.congr rfl
      exact dhcpRenew_backoff (hleft.observe (.dhcpState .rebinding) trivial fun _ => trivial)
    · exact dhcpRenew_backoff h
  | rebinding =>
    have hexpired : getElapsed (client s).dhcp.time s.time ≥ (client s).dhcp.leaseTime ↔
        getElapsed s.dhcp.time s.time ≥ s.dhcp.leaseTime := Iff.rfl
    simp only [dhcpRebindingTask, setDhcpState, resetDhcpBackoff, hexpired, wp_bind, wp_get, wp_getTime,
      wp_ite, wp_modifyDhcp, wp_emit, wp_pure]
    split
    · rfl
    · rfl

end MiniIp.Invariant
