import MiniIp.Invariant.ClientBackoff
import MiniIp.Invariant.Lease

/-!
# The packets of the DHCP client

In three states the client sends a packet when the timeout has passed, at once if none has been sent since the
timeouts were started. The lemmas are about calls that return: `dhcpTask_returns` says when they do.
-/

set_option autoImplicit false

namespace MiniIp.Invariant

open MiniIp.Source MiniIp.Library.Runs MiniIp.Library.Wp

/-- The packet that `dhcp_task` sends on timeout. -/
def packetOf : DhcpState → Option DhcpPacketType
  | .discover => some .discover
  | .requesting => some .request
  | .renewing => some .renew
  | .disabled | .bound | .rebinding | .error => none

/-- A packet of this kind is sent between the two states. -/
def Sent (type : DhcpPacketType) (s t : Stack) : Prop :=
  ∃ new, t.trace = new ++ s.trace ∧ Event.dhcpSent type ∈ new

/-- The timeouts have been started, and no packet has been sent since. -/
def Restarted (backoff : Backoff) : Prop := backoff.count = 0 ∧ backoff.timeout = backoff.startTimeout

variable {type : DhcpPacketType} {s t u : Stack} {op : Op}

theorem Sent.later (h : Sent type s t) (htrace : t.trace <:+ u.trace) : Sent type s u := by
  obtain ⟨new, hnew, hsent⟩ := h
  obtain ⟨more, hmore⟩ := htrace
  refine ⟨more ++ new, ?_, List.mem_append_right _ hsent⟩
  rw [← hmore, hnew, List.append_assoc]

theorem Sent.earlier (h : Sent type t u) (htrace : s.trace <:+ t.trace) : Sent type s u := by
  obtain ⟨new, hnew, hsent⟩ := h
  obtain ⟨before, hbefore⟩ := htrace
  refine ⟨new ++ before, ?_, List.mem_append_left _ hsent⟩
  rw [hnew, ← hbefore, List.append_assoc]

/-- What comes after the packet takes nothing back. -/
theorem Sent.bind {α β : Type} {x : Net α} {f : α → Net β} (h : wp x (fun _ t => Sent type s t) (fun _ _ => True) t)
    (hf : ∀ a, KeepsApplication False (f a)) : wp (x >>= f) (fun _ t => Sent type s t) (fun _ _ => True) t := by
  rw [wp_bind]
  apply wp_next h
  intro a u hu
  apply wp_partial (hf a u)
  intro _ v hv
  exact hu.later hv.trace

/-- If the call returns, the packet has been sent. -/
theorem dhcpSendPacket_sent (type : DhcpPacketType) (s : Stack) :
    wp (dhcpSendPacket type) (fun _ t => Sent type s t) (fun _ _ => True) s := by
  have hallocates : KeepsApplication False allocateNetworkPacket := allocateNetworkPacket_spares.keepsApplication
  have hsends : ∀ packet, KeepsApplication False (udpSendZeroCopy packet dhcpClientPort dhcpServerPort 0xFFFFFFFF) :=
    fun packet => (udpSendZeroCopy_sends packet _ _ _).keepsApplication
  unfold dhcpSendPacket
  rw [wp_bind]
  apply wp_partial (hallocates s)
  intro packet t ht
  simp only [wp_bind, wp_get, wp_modifyPacket, wp_emit]
  apply wp_partial (hsends packet _)
  intro _ u hu
  have hsent : Sent type t u := by
    obtain ⟨after, hafter⟩ := hu.trace
    refine ⟨after ++ [.dhcpSent type], ?_, by simp⟩
    rw [← hafter, List.append_assoc]
    rfl
  exact hsent.earlier ht.trace

theorem dhcpSendOnTimeout_at_once (hdue : backoffTimeout s.dhcp.backoff s.time = true) :
    wp (dhcpSendOnTimeout type) (fun _ t => Sent type s t) (fun _ _ => True) s := by
  unfold dhcpSendOnTimeout
  simp only [wp_bind, wp_get, wp_getTime, hdue, if_true, wp_random, wp_modifyDhcp]
  exact dhcpSendPacket_sent type s

theorem dhcpRenew_at_once (hdue : backoffTimeout s.dhcp.backoff s.time = true) :
    wp dhcpRenew (fun _ t => Sent .renew s t) (fun _ _ => True) s := by
  rw [dhcpRenew_eq]
  apply Sent.bind (dhcpSendOnTimeout_at_once hdue)
  intro _
  exact afterRenew_of client_keepsApplication.toAnswerParts trivial trivial

/-- A packet that is due is sent. -/
theorem dhcpTask_at_once (htype : packetOf s.dhcp.state = some type)
    (hdue : backoffTimeout s.dhcp.backoff s.time = true) :
    wp dhcpTask (fun _ t => Sent type s t) (fun _ _ => True) s := by
  unfold dhcpTask
  simp only [wp_bind, wp_get]
  cases hstate : s.dhcp.state with
  | discover =>
    rw [hstate] at htype
    cases htype
    rw [dhcpDiscoverTask_eq]
    apply Sent.bind (dhcpSendOnTimeout_at_once hdue)
    intro _
    exact afterDiscover_of client_keepsApplication.toAnswerParts trivial
  | requesting =>
    rw [hstate] at htype
    cases htype
    rw [dhcpRequestingTask_eq]
    apply Sent.bind (dhcpSendOnTimeout_at_once hdue)
    intro _
    have hclient : ClientParts _ fun _ x => KeepsApplication False x := client_keepsApplication
    exact afterRequest_of hclient.toAnswerParts hclient.address hclient.netmask trivial trivial
  | renewing =>
    rw [hstate] at htype
    cases htype
    simp only [dhcpRenewingTask, setDhcpState, wp_bind, wp_get, wp_getTime, wp_ite, wp_modifyDhcp, wp_emit]
    split
    · apply wp_next (dhcpRenew_at_once _)
      · intro _ t ht
        exact ht.earlier (List.suffix_cons _ _)
      · exact hdue
    · exact dhcpRenew_at_once hdue
  | _ =>
    rw [hstate] at htype
    cases htype

/-- No other call touches the client. -/
theorem exec_dhcp (hruns : ¬ Op.RunsDhcp op) : wp op.exec (fun _ t => t.dhcp = s.dhcp) (fun _ _ => True) s := by
  by_cases hconfigures : Op.Configures op
  · cases op with
    | setOurMac mac => exact rfl
    | setOurIp ip => exact rfl
    | setOurNetmask netmask => exact rfl
    | _ => exact hconfigures.elim
  · apply wp_next (exec_elsewhere hconfigures hruns)
    intro _ t ht
    have hdhcp : (client t).dhcp = (client s).dhcp := by rw [ht.client]
    calc t.dhcp = { (client t).dhcp with backoff := t.dhcp.backoff } := rfl
      _ = { (client s).dhcp with backoff := s.dhcp.backoff } := by rw [hdhcp, ht.backoff]

theorem backoffTimeout_of_restarted {backoff : Backoff} (h : Restarted backoff) (now : Time) :
    backoffTimeout backoff now = true := by
  simp [backoffTimeout, h.1]

end MiniIp.Invariant
