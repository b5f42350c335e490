import MiniIp.Invariant.Lease

/-!
# What the client accepts

Every packet that counts as accepted was the datagram that waited in some call of `dhcp_task`. It was for this
client, and `dhcp_read` took it for what the client was waiting for.
-/

set_option autoImplicit false

namespace MiniIp.Invariant

open MiniIp.Source MiniIp.Library.Wp

/-- `dhcp_read` takes the packet for one of the type that is accepted in the state. -/
def Awaited (state : DhcpState) (p : NetworkPacket) : Prop :=
  state = .discover ∧ ReadType p dhcpMessageTypeOffer ∨
    (state = .requesting ∨ state = .renewing) ∧ ReadType p dhcpMessageTypeAck

/-- The packet is for the client, and `dhcp_read` takes it for what the client waits for. -/
structure Suits (c : Client) (ourMac : Mac) (p : NetworkPacket) : Prop where
  verified : verifyDhcpHeader c.dhcp.transactionId ourMac p.data p.index = true
  awaited : Awaited c.dhcp.state p

/-- The operation is a call of `dhcp_task` that finds this datagram, and the datagram suits. -/
structure Finds (s : Stack) (op : Op) (p : NetworkPacket) : Prop where
  task : op = .dhcpTask
  head : headDatagram s dhcpClientPort = some p
  suits : Suits (client s) s.ourMac p

variable {c : Client} {ourMac : Mac} {now : Time} {head : Option NetworkPacket} {p : NetworkPacket} {s : Stack} {op : Op}
  {U : QueueContent}

/-- What `try_read_offer` accepts. -/
theorem tryReadOffer_suits (hstate : c.dhcp.state = .discover) (h : (c.tryReadOffer ourMac head).2 = .offer) :
    ∃ p, head = some p ∧ Suits c ourMac p := by
  rcases tryReadOffer_cases c ourMac head with ⟨o, hread⟩ | ⟨p, o, hhead, hreads, hoffers, _⟩
  · rw [hread] at h
    cases h
  · obtain ⟨_, f, hf, _, htype⟩ := hreads.readAs hoffers.1
    have hoffer : o.messageType = dhcpMessageTypeOffer := hoffers.2
    rw [hoffer] at htype
    exact ⟨p, hhead, hf.verified, .inl ⟨hstate, f, hf.items, htype⟩⟩

/-- What `try_read_ack` accepts, whatever state the timer has put the client in. -/
theorem tryReadAck_suits (hstate : c.dhcp.state = .requesting ∨ c.dhcp.state = .renewing) (state : DhcpState)
    (h : ((c.setState state).tryReadAck ourMac now head).2 = .ack) : ∃ p, head = some p ∧ Suits c ourMac p := by
  rcases tryReadAck_cases (c.setState state) ourMac now head with ⟨o, outcome, hack, _, hread⟩ | ⟨p, o, hhead, hreads, hanswer, _⟩
  · rw [hread] at h
    exact absurd h hack
  · obtain ⟨hmask, hack, _⟩ := answer_ack hanswer
    obtain ⟨_, f, hf, _, htype⟩ := hreads.readAs hmask
    have hkind : o.messageType = dhcpMessageTypeAck := hack
    rw [hkind] at htype
    exact ⟨p, hhead, hf.verified, .inr ⟨hstate, f, hf.items, htype⟩⟩

theorem setState_self (c : Client) : c.setState c.dhcp.state = c := rfl

/-- An answer is looked for where the client is requesting or renewing a lease. -/
theorem task_ack (h : (c.task ourMac now head).2 = .ack) : ∃ p, head = some p ∧ Suits c ourMac p := by
  unfold Client.task at h
  cases hstate : c.dhcp.state with
  | disabled => simp [hstate] at h
  | error => simp [hstate] at h
  | bound => simp [hstate] at h
  | rebinding => simp [hstate] at h
  | discover =>
    simp only [hstate] at h
    exfalso
    rcases tryReadOffer_cases c ourMac head with ⟨o, hread⟩ | ⟨_, _, _, _, _, hread⟩
    · rw [Client.discover, hread] at h
      cases h
    · rw [Client.discover, hread] at h
      cases h
  | requesting =>
    simp only [hstate, requesting_outcome] at h
    rw [← setState_self c] at h
    exact tryReadAck_suits (.inl hstate) _ h
  | renewing =>
    simp only [hstate, Client.renewing, renew_outcome] at h
    split at h
    · exact tryReadAck_suits (.inr hstate) .rebinding h
    · rw [← setState_self c] at h
      exact tryReadAck_suits (.inr hstate) _ h

/-- An offer is looked for where the client has none. -/
theorem task_offer (h : (c.task ourMac now head).2 = .offer) : ∃ p, head = some p ∧ Suits c ourMac p := by
  have hanswer : ∀ c : Client, (c.tryReadAck ourMac now head).2 ≠ .offer := by
    intro c
    rcases tryReadAck_cases c ourMac now head with ⟨_, _, _, hoffer, hread⟩ | ⟨_, _, _, _, _, hread⟩
    · rwa [hread]
    · rw [hread]
      simp
  unfold Client.task at h
  cases hstate : c.dhcp.state with
  | disabled => simp [hstate] at h
  | error => simp [hstate] at h
  | bound => simp [hstate] at h
  | rebinding => simp [hstate] at h
  | discover =>
    simp only [hstate, discover_outcome] at h
    exact tryReadOffer_suits hstate h
  | requesting =>
    simp only [hstate, requesting_outcome] at h
    exact absurd h (hanswer c)
  | renewing =>
    simp only [hstate, Client.renewing, renew_outcome] at h
    exact absurd h (hanswer _)

theorem mem_takenFor {kind outcome : Outcome} : p ∈ takenFor kind outcome head ↔ outcome = kind ∧ head = some p := by
  unfold takenFor
  split
  · next hkind => simp [hkind]
  · next hkind => simp [hkind]

/-- What a call of `dhcp_task` adds to the packets of one kind. -/
theorem finds_of_mem {kind outcome : Outcome} {past : List NetworkPacket}
    (hsuits : outcome = kind → ∃ q, headDatagram s dhcpClientPort = some q ∧ Suits (client s) s.ourMac q)
    (hp : p ∈ takenFor kind outcome (headDatagram s dhcpClientPort) ++ past) : p ∈ past ∨ Finds s .dhcpTask p := by
  rcases List.mem_append.mp hp with hnew | hold
  · obtain ⟨hkind, hhead⟩ := mem_takenFor.mp hnew
    obtain ⟨q, hq, hsuit⟩ := hsuits hkind
    rw [hhead] at hq
    rw [← Option.some.inj hq] at hsuit
    exact .inr ⟨rfl, hhead, hsuit⟩
  · exact .inl hold

/-- An accepted packet has been accepted before, or the operation finds it and it suits. -/
theorem exec_accepts (h : Intact False U s) :
    wp op.exec (fun _ t =>
      (∀ p ∈ acceptedPackets isAck t.trace, p ∈ acceptedPackets isAck s.trace ∨ Finds s op p) ∧
        ∀ p ∈ acceptedPackets isOffer t.trace, p ∈ acceptedPackets isOffer s.trace ∨ Finds s op p)
      (fun _ _ => True) s := by
  by_cases hruns : Op.RunsDhcp op
  · cases op with
    | dhcpStart =>
      simp only [Op.exec, dhcpStart, setDhcpState, wp_bind, wp_modifyDhcp, wp_emit, wp_random, wp_getTime]
      apply wp_next (udpListen_elsewhere _ _)
      intro _ t ht
      rw [ht.ack, ht.offer]
      exact ⟨fun _ hp => .inl hp, fun _ hp => .inl hp⟩
    | dhcpTask =>
      obtain ⟨limit, held, hs⟩ := h
      apply wp_next (dhcpTask_refines hs)
      intro _ t ht
      rw [ht.accepted.ack, ht.accepted.offer]
      exact ⟨fun _ hp => finds_of_mem task_ack hp, fun _ hp => finds_of_mem task_offer hp⟩
    | _ => exact hruns.elim
  · by_cases hconfigures : Op.Configures op
    · cases op with
      | setOurMac mac => exact ⟨fun _ hp => .inl hp, fun _ hp => .inl hp⟩
      | setOurIp ip => exact ⟨fun _ hp => .inl hp, fun _ hp => .inl hp⟩
      | setOurNetmask netmask => exact ⟨fun _ hp => .inl hp, fun _ hp => .inl hp⟩
      | _ => exact hconfigures.elim
    · apply wp_next (exec_elsewhere hconfigures hruns)
      intro _ t ht
      rw [ht.ack, ht.offer]
      exact ⟨fun _ hp => .inl hp, fun _ hp => .inl hp⟩

end MiniIp.Invariant
