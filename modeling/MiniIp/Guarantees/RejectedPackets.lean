import MiniIp.Invariant.Acceptance
import MiniIp.Invariant.DhcpServer
import MiniIp.Invariant.SameDatagram

/-!
# What a rejected packet leaves behind

`dhcp_read` (dhcp.c:249-336) stores the options of a packet in a static record before it knows
whether the packet is accepted, and the next packet does not clear the values. Of
the values that are copied to `dhcp` only the netmask need not stand in the packet
that is accepted: neither `try_read_offer` nor `try_read_ack` (dhcp.c:340-389) asks for it.

What a packet carries is here what `dhcp_read` finds in it. By the grammar of the options it may carry something
else, where the options begin with a pad.
-/

set_option autoImplicit false

namespace MiniIp.Guarantees.RejectedPackets

open MiniIp.Source MiniIp.Invariant MiniIp.Library.Runs MiniIp.Library.Wp

/-- `dhcp_read` finds a subnet mask in the packet. -/
def CarriesNetmask (p : NetworkPacket) : Prop := ∃ f, OptionsRead p f ∧ f.netmask.isSome = true

/-- The next call of `dhcp_task` accepts nothing. -/
def Rejects (s : Stack) : Prop :=
  ((client s).task s.ourMac s.time (headDatagram s dhcpClientPort)).2 = .nothing

/-- Both runs find the same datagram, or the second one a packet that is rejected and the first
one none. -/
def SameButRejected (s t : Stack) : Prop :=
  s.dhcp.state = t.dhcp.state ∧ (SameHeads s t ∨ headDatagram s dhcpClientPort = none ∧ Rejects t)

/-- The datagram that both runs find carries its own netmask, if it has the type that is accepted, or
earlier packets have left the same netmask in both. -/
def NetmaskSettled (s t : Stack) : Prop :=
  SameHeads s t → ∀ p ∈ headDatagram t dhcpClientPort, Awaited t.dhcp.state p →
    CarriesNetmask p ∨ s.options.netmask = t.options.netmask

/-- The clients differ in the record only. -/
def SameLease (c c' : Client) : Prop := ∃ o, c' = { c with options := o }

variable {c c' : Client} {p : NetworkPacket} {ourMac : Mac} {now : Time} {o o' : DhcpOptions}
  {transactionId : UInt32} {head : Option NetworkPacket}

theorem sameLease_congruence : Congruence SameLease where
  dhcp h := by
    obtain ⟨o, rfl⟩ := h
    rfl
  setDhcp d h := by
    obtain ⟨o, rfl⟩ := h
    exact ⟨o, rfl⟩
  setIp ip h := by
    obtain ⟨o, rfl⟩ := h
    exact ⟨o, rfl⟩
  setNetmask netmask h := by
    obtain ⟨o, rfl⟩ := h
    exact ⟨o, rfl⟩

theorem SameLease.trans {c'' : Client} (h : SameLease c c') (h' : SameLease c' c'') : SameLease c c'' := by
  obtain ⟨o, rfl⟩ := h
  obtain ⟨o', rfl⟩ := h'
  exact ⟨o', rfl⟩

theorem sameLease_of_alike (h : Alike c c') : SameLease c c' := by
  refine ⟨c'.options, ?_⟩
  rw [h.dhcp, h.ours.1, h.ours.2]

/-- The packet is accepted or refused whatever the record held before. -/
theorem readDhcpPacket_same (transactionId : UInt32) (ourMac : Mac) (p : NetworkPacket) (o o' : DhcpOptions) :
    (readDhcpPacket transactionId ourMac p o).1 = (readDhcpPacket transactionId ourMac p o').1 ∧
      ((readDhcpPacket transactionId ourMac p o).1 = true → SameMarked (o.netmask = o'.netmask)
        (readDhcpPacket transactionId ourMac p o).2 (readDhcpPacket transactionId ourMac p o').2) := by
  unfold readDhcpPacket
  split
  · exact ⟨rfl, fun haccepted => Bool.noConfusion haccepted⟩
  · dsimp only
    have hcleared : SameMarked (o.netmask = o'.netmask)
        { o with yourIp := readBe32 p.data (p.index + 16), mask := 0 }
        { o' with yourIp := readBe32 p.data (p.index + 16), mask := 0 } :=
      ⟨rfl, rfl, by simp, by simp, by simp, by simp⟩
    have hread := readOptions_same p.data ((p.length - dhcpHeaderSize).toNat + 1)
      (p.index + dhcpHeaderSize) (p.length - dhcpHeaderSize) hcleared
    exact ⟨hread.1, fun _ => hread.2⟩

theorem reads_netmask (h : Reads c ourMac p o) (hcarries : CarriesNetmask p) : o.mask.testBit 2 = true := by
  obtain ⟨f, hf, hnetmask⟩ := hcarries
  obtain ⟨g, hg, rfl⟩ := (readDhcpPacket_iff hf.long).mp h
  rw [hf.unique hg.items] at hnetmask
  have hmask : (g.record (clearedOptions p c.options)).mask = g.mask := Nat.zero_or g.mask
  rw [hmask, (mask_bits g).2.1, hnetmask]

theorem reads_type (h : Reads c ourMac p o) (hmask : o.mask &&& expectedMask = expectedMask) :
    ReadType p o.messageType := by
  obtain ⟨_, f, hf, _, htype⟩ := h.readAs hmask
  exact ⟨f, hf.items, htype⟩

/-- The netmask of a packet that is read with two records. -/
theorem netmask_same {o₁ o₂ : DhcpOptions} (hreads : Reads c ourMac p o₁)
    (hsame : SameMarked (c.options.netmask = c'.options.netmask) o₁ o₂)
    (hsettled : CarriesNetmask p ∨ c.options.netmask = c'.options.netmask) : o₁.netmask = o₂.netmask := by
  rcases hsettled with hcarries | hstored
  · exact hsame.netmask (.inr (reads_netmask hreads hcarries))
  · exact hsame.netmask (.inl hstored)

/-- `dhcp_read` with two records: refused in both cases, or accepted with the same marks. -/
theorem read_same (ourMac : Mac) (h : SameLease c c') (p : NetworkPacket) :
    ((c.read ourMac (some p)).1 = false ∧ (c'.read ourMac (some p)).1 = false ∧
      SameLease (c.read ourMac (some p)).2 (c'.read ourMac (some p)).2) ∨
    ∃ o₁ o₂, Reads c ourMac p o₁ ∧ SameMarked (c.options.netmask = c'.options.netmask) o₁ o₂ ∧
      c.read ourMac (some p) = (true, { c with options := o₁ }) ∧
      c'.read ourMac (some p) = (true, { c with options := o₂ }) := by
  obtain ⟨o, rfl⟩ := h
  obtain ⟨haccepted, hsame⟩ := readDhcpPacket_same c.dhcp.transactionId ourMac p c.options o
  cases hread : (readDhcpPacket c.dhcp.transactionId ourMac p c.options).1 with
  | false => exact .inl ⟨hread, haccepted.symm.trans hread, _, rfl⟩
  | true =>
    refine .inr ⟨_, _, Prod.ext hread rfl, hsame hread, ?_, ?_⟩
    · simp only [Client.read, hread]
    · simp only [Client.read, ← haccepted, hread]

theorem offers_same {stored : Prop} {o₁ o₂ : DhcpOptions} (h : SameMarked stored o₁ o₂) (c : Client) :
    { c with options := o₁ }.offers ↔ { c with options := o₂ }.offers := by
  simp only [Client.offers, ← h.mask]
  constructor
  · rintro ⟨hmask, htype⟩
    exact ⟨hmask, (h.messageType (expected_bits hmask).2.1).symm.trans htype⟩
  · rintro ⟨hmask, htype⟩
    exact ⟨hmask, (h.messageType (expected_bits hmask).2.1).trans htype⟩

theorem tryReadOffer_same (h : SameLease c c')
    (hsettled : ReadType p dhcpMessageTypeOffer →
      CarriesNetmask p ∨ c.options.netmask = c'.options.netmask) :
    SameResult SameLease (c.tryReadOffer ourMac (some p)) (c'.tryReadOffer ourMac (some p)) := by
  unfold Client.tryReadOffer
  rcases read_same ourMac h p with ⟨hno, hno', hkept⟩ | ⟨o₁, o₂, hreads, hsame, hread, hread'⟩
  · simp only [hno, hno', Bool.false_eq_true, false_and, if_false]
    exact ⟨hkept, rfl⟩
  · rw [hread, hread']
    simp only [true_and, offers_same hsame c]
    split
    · next hoffers =>
      obtain ⟨hmask, htype⟩ := (offers_same hsame c).mpr hoffers
      have hbits := expected_bits hmask
      have hnetmask := netmask_same hreads hsame (hsettled (htype ▸ reads_type hreads hmask))
      refine ⟨⟨o₂, ?_⟩, rfl⟩
      simp only [Client.takeOffer, hnetmask, hsame.serverIp hbits.1, hsame.yourIp]
    · exact ⟨⟨o₂, rfl⟩, rfl⟩

theorem answer_same {stored : Prop} {o₁ o₂ : DhcpOptions} (h : SameMarked stored o₁ o₂) (c : Client)
    (hnetmask : o₁.mask &&& expectedMask = expectedMask → o₁.messageType = dhcpMessageTypeAck →
      o₁.netmask = o₂.netmask) :
    { c with options := o₁ }.answer = { c with options := o₂ }.answer := by
  unfold Client.answer
  simp only [← h.mask]
  by_cases hmask : o₁.mask &&& expectedMask = expectedMask
  · have hbits := expected_bits hmask
    simp only [← h.messageType hbits.2.1, ← h.serverIp hbits.1, ← h.yourIp]
    by_cases htype : o₁.messageType = dhcpMessageTypeAck
    · rw [hnetmask hmask htype]
    · simp only [htype, ne_eq, not_false_eq_true, if_true]
  · simp only [hmask, ne_eq, not_false_eq_true, if_true]

theorem tryReadAck_same (h : SameLease c c')
    (hsettled : ReadType p dhcpMessageTypeAck →
      CarriesNetmask p ∨ c.options.netmask = c'.options.netmask) :
    SameResult SameLease (c.tryReadAck ourMac now (some p)) (c'.tryReadAck ourMac now (some p)) := by
  unfold Client.tryReadAck
  rcases read_same ourMac h p with ⟨hno, hno', hkept⟩ | ⟨o₁, o₂, hreads, hsame, hread, hread'⟩
  · simp only [hno, hno', if_true]
    exact ⟨hkept, rfl⟩
  · have hanswer := answer_same hsame c fun hmask htype =>
      netmask_same hreads hsame (hsettled (htype ▸ reads_type hreads hmask))
    rw [hread, hread']
    simp only [Bool.true_eq_false, if_false, ← hanswer]
    split
    · next hack =>
      have hbits := expected_bits (answer_ack hack).1
      refine ⟨⟨o₂, ?_⟩, rfl⟩
      simp only [Client.takeAck, hsame.leaseTime hbits.2.2]
    · exact ⟨⟨o₂, rfl⟩, rfl⟩

/-- A call that finds nothing, and one that finds a packet and accepts nothing. -/
theorem tryReadOffer_rejected (h : SameLease c c') (hrejects : (c'.tryReadOffer ourMac head).2 ≠ .offer) :
    SameResult SameLease (c.tryReadOffer ourMac none) (c'.tryReadOffer ourMac head) := by
  obtain ⟨o, rfl⟩ := h
  rcases tryReadOffer_cases { c with options := o } ourMac head with ⟨o', hrest⟩ | ⟨p, o', _, _, _, hrest⟩
  · rw [hrest]
    exact ⟨⟨o', rfl⟩, rfl⟩
  · rw [hrest] at hrejects
    exact absurd rfl hrejects

theorem tryReadAck_rejected (h : SameLease c c') (hrejects : (c'.tryReadAck ourMac now head).2 = .nothing) :
    SameResult SameLease (c.tryReadAck ourMac now none) (c'.tryReadAck ourMac now head) := by
  obtain ⟨o, rfl⟩ := h
  rcases tryReadAck_cases { c with options := o } ourMac now head with
    ⟨o', outcome, _, _, hrest⟩ | ⟨p, o', _, _, _, hrest⟩
  · rw [hrest] at hrejects ⊢
    exact ⟨⟨o', rfl⟩, hrejects.symm⟩
  · rw [hrest] at hrejects
    cases hrejects

/-- The answer does not depend on the state. -/
theorem tryReadAck_setState (c : Client) (state : DhcpState) :
    ((c.setState state).tryReadAck ourMac now head).2 = (c.tryReadAck ourMac now head).2 := by
  cases head with
  | none => rfl
  | some p =>
    unfold Client.tryReadAck
    dsimp only
    split
    · next hno => rw [if_pos (show (c.read ourMac (some p)).1 = false from hno)]
    · next hyes =>
      rw [if_neg (show ¬ (c.read ourMac (some p)).1 = false from hyes)]
      have hanswer : ((c.setState state).read ourMac (some p)).2.answer = (c.read ourMac (some p)).2.answer := rfl
      rw [hanswer]
      split
      · rfl
      · rfl

theorem task_rejected (h : SameLease c c') (hrejects : (c'.task ourMac now head).2 = .nothing) :
    SameResult SameLease (c.task ourMac now none) (c'.task ourMac now head) := by
  apply sameLease_congruence.task h
  · intro hstate
    rw [sameLease_congruence.dhcp h] at hstate
    simp only [Client.task, hstate] at hrejects
    apply tryReadOffer_rejected h
    rw [Ne, ← discover_outcome, hrejects]
    simp
  · intro hstate state
    rw [sameLease_congruence.dhcp h] at hstate
    apply tryReadAck_rejected (sameLease_congruence.setState h state)
    rw [tryReadAck_setState]
    rcases hstate with hstate | hstate
    · simp only [Client.task, hstate, requesting_outcome] at hrejects
      exact hrejects
    · simp only [Client.task, hstate, Client.renewing, renew_outcome] at hrejects
      split at hrejects
      · rwa [tryReadAck_setState] at hrejects
      · exact hrejects

theorem sameResult_trans {result result' result'' : Client × Outcome} (h : SameResult Alike result result')
    (h' : SameResult SameLease result' result'') : SameResult SameLease result result'' :=
  ⟨(sameLease_of_alike h.clients).trans h'.clients, h.outcome.trans h'.outcome⟩

/-- Both calls find the same datagram. -/
theorem task_settled {head' : Option NetworkPacket} (h : SameLease c c')
    (hhead : Option.Rel SameDatagram head head')
    (hsettled : ∀ p ∈ head', Awaited c'.dhcp.state p →
      CarriesNetmask p ∨ c.options.netmask = c'.options.netmask) :
    SameResult SameLease (c.task ourMac now head) (c'.task ourMac now head') := by
  have hdhcp := sameLease_congruence.dhcp h
  cases hhead with
  | none => exact task_rejected h (task_short (by simp))
  | some hsame =>
    apply sameLease_congruence.task h
    · intro hstate
      apply sameResult_trans (tryReadOffer_alike ourMac (.refl c) (.some hsame))
      apply tryReadOffer_same h
      intro htype
      exact hsettled _ rfl (.inl ⟨hdhcp ▸ hstate, htype⟩)
    · intro hstate state
      apply sameResult_trans (tryReadAck_alike ourMac now (.refl (c.setState state)) (.some hsame))
      apply tryReadAck_same (sameLease_congruence.setState h state)
      intro htype
      exact hsettled _ rfl (.inr ⟨hdhcp ▸ hstate, htype⟩)

/-- The client has accepted the same in two runs, and has the same lease. -/
structure SameAccepted (v v' : View) : Prop where
  clients : SameLease v.client v'.client
  acks : List.Forall₂ SameDatagram v.acks v'.acks
  offers : List.Forall₂ SameDatagram v.offers v'.offers

/-- The same datagram, or nothing and a rejected packet, adds the same to what has been accepted. -/
theorem taken_same {s t : Stack} (kind : Outcome) (hkind : kind ≠ .nothing) {outcome : Outcome}
    (hheads : SameHeads s t ∨ headDatagram s dhcpClientPort = none ∧ outcome = .nothing)
    {past past' : List NetworkPacket} (h : List.Forall₂ SameDatagram past past') :
    List.Forall₂ SameDatagram (takenFor kind outcome (headDatagram s dhcpClientPort) ++ past)
      (takenFor kind outcome (headDatagram t dhcpClientPort) ++ past') := by
  rcases hheads with hsame | ⟨_, hnothing⟩
  · exact takenFor_same hsame h
  · rw [hnothing, takenFor_ne hkind.symm, takenFor_ne hkind.symm]
    exact h

theorem closed_sameAccepted :
    Closed SameAccepted fun s t => SameButRejected s t ∧ NetmaskSettled s t where
  start _ _ transactionId now h :=
    ⟨sameLease_congruence.start h.clients transactionId now, h.acks, h.offers⟩
  ip _ _ ip h := ⟨sameLease_congruence.setIp ip h.clients, h.acks, h.offers⟩
  netmask _ _ netmask h := ⟨sameLease_congruence.setNetmask netmask h.clients, h.acks, h.offers⟩
  task s t h hmac htime hheads := by
    obtain ⟨⟨_, hheads⟩, hsettled⟩ := hheads
    have htask : SameResult SameLease
        ((view s).client.task t.ourMac t.time (headDatagram s dhcpClientPort))
        ((view t).client.task t.ourMac t.time (headDatagram t dhcpClientPort)) := by
      rcases hheads with hsame | ⟨hnone, hrejects⟩
      · exact task_settled h.clients hsame (hsettled hsame)
      · rw [hnone]
        exact task_rejected h.clients hrejects
    have htaken : SameHeads s t ∨ headDatagram s dhcpClientPort = none ∧
        ((view t).client.task t.ourMac t.time (headDatagram t dhcpClientPort)).2 = .nothing := hheads
    rw [hmac, htime]
    constructor
    · exact htask.clients
    · simp only [View.task]
      rw [htask.outcome]
      exact taken_same .ack (by simp) htaken h.acks
    · simp only [View.task]
      rw [htask.outcome]
      exact taken_same .offer (by simp) htaken h.offers

variable {application : Application} {time : Time} {entropy : Nat → UInt32} {s t : Stack}

/-- Where every accepted packet brings its netmask, or has found the same one in both runs, rejected
packets have no effect. -/
theorem rejected_without_effect
    (h : Paired Op.exec Alone (Together fun s t => SameButRejected s t ∧ NetmaskSettled s t)
      (booted application time entropy) s t) :
    { s.dhcp with backoff := t.dhcp.backoff } = t.dhcp ∧
      List.Forall₂ SameDatagram (acceptedPackets isOffer s.trace) (acceptedPackets isOffer t.trace) ∧
      List.Forall₂ SameDatagram (acceptedPackets isAck s.trace) (acceptedPackets isAck t.trace) := by
  have hbooted : Reaches Op.exec (fun _ _ => True) (booted application time entropy)
      (booted application time entropy) := .start
  have hviews : SameAccepted (view s) (view t) := by
    apply (paired_views closed_sameAccepted (reaches_intact False hbooted fun w => w.elim) _ h).views
    rw [booted_view]
    exact ⟨⟨_, rfl⟩, .nil, .nil⟩
  constructor
  · have hdhcp : (client s).dhcp = (client t).dhcp := sameLease_congruence.dhcp hviews.clients
    calc { s.dhcp with backoff := t.dhcp.backoff }
        = { (client s).dhcp with backoff := t.dhcp.backoff } := rfl
      _ = { (client t).dhcp with backoff := t.dhcp.backoff } := by rw [hdhcp]
      _ = t.dhcp := rfl
  constructor
  · exact hviews.offers
  · exact hviews.acks

/-- Check an operation of both runs, with a condition on the states for `dhcp_task`. -/
def togetherGuard (check : Stack → Stack → Bool) (s t : Stack) : Op → Bool
  | .dhcpTask => decide (s.time = t.time ∧ s.dhcp.state = t.dhcp.state) &&
    (headsGuard (headDatagram s dhcpClientPort) (headDatagram t dhcpClientPort) ||
      (headDatagram s dhcpClientPort).isNone &&
        decide (((client t).task t.ourMac t.time (headDatagram t dhcpClientPort)).2 = .nothing)) &&
    check s t
  | .dhcpStart => s.time = t.time ∧ s.entropy s.drawn = t.entropy t.drawn
  | _ => false

theorem together_of_guard {check : Stack → Stack → Bool} {heads : Stack → Stack → Prop} {op : Op}
    (hcheck : SameButRejected s t → check s t = true → heads s t)
    (h : togetherGuard check s t op = true) : Together heads s t op := by
  cases op with
  | dhcpTask =>
    simp only [togetherGuard, Bool.and_eq_true, Bool.or_eq_true, decide_eq_true_eq, Option.isNone_iff_eq_none] at h
    obtain ⟨⟨⟨htime, hstate⟩, hheads⟩, hrest⟩ := h
    exact ⟨htime, hcheck ⟨hstate, hheads.imp_left sameDatagram_of_guard⟩ hrest⟩
  | dhcpStart =>
    obtain ⟨htime, hrandom⟩ := of_decide_eq_true h
    exact ⟨htime, hrandom⟩
  | _ => cases h

/-- The second run gets a packet ahead of the offer that both get. -/
def afterRejected (rejected offer : List UInt8) : List (Turn Op) :=
  [.both .dhcpStart,
    .right (.deliverUdp 0 dhcpServerPort dhcpClientPort rejected), .right .receive, .both .dhcpTask,
    .left (.deliverUdp 0 dhcpServerPort dhcpClientPort offer), .left .receive,
    .right (.deliverUdp 1 dhcpServerPort dhcpClientPort offer), .right .receive, .both .dhcpTask]

/-- An ACK without a netmask is rejected, and the offer brings the netmask. -/
theorem rejected_without_effect_offer :
    ∃ s t, Paired Op.exec Alone (Together fun s t => SameButRejected s t ∧ NetmaskSettled s t)
        (booted zeroApplication 0 fun _ => 0) s t ∧
      s.dhcp.netmask = 0xFFFFFF00 ∧ { s.dhcp with backoff := t.dhcp.backoff } = t.dhcp := by
  have hrun : pairRuns Op.exec aloneGuard (togetherGuard fun s t => s.options.netmask = t.options.netmask)
      (fun s _ => s.dhcp.netmask = 0xFFFFFF00)
      (afterRejected (dhcpReply 0 0x0A000001 (replyOptions dhcpMessageTypeAck))
        (serverReply dhcpMessageTypeOffer))
      (booted zeroApplication 0 fun _ => 0) (booted zeroApplication 0 fun _ => 0) = true := by
    decide +kernel
  have htogether : ∀ s t op,
      togetherGuard (fun s t => s.options.netmask = t.options.netmask) s t op = true →
        Together (fun s t => SameButRejected s t ∧ NetmaskSettled s t) s t op := by
    intro s t op hguard
    apply together_of_guard _ hguard
    intro hsame hequal
    exact ⟨hsame, fun _ _ _ _ => .inr (of_decide_eq_true hequal)⟩
  obtain ⟨s, t, hpaired, hcheck⟩ := paired_of_pairRuns .start (fun _ _ h => alone_of_guard h) htogether hrun
  exact ⟨s, t, hpaired, of_decide_eq_true hcheck, (rejected_without_effect hpaired).1⟩

/-- The ACK that is rejected while the client is in `DHCP_DISCOVER` leaves its netmask behind, and the
offer without a netmask commits it. -/
theorem rejected_packet_sets_netmask :
    ∃ s t, Paired Op.exec Alone (Together SameButRejected) (booted zeroApplication 0 fun _ => 0) s t ∧
      s.dhcp.netmask = 0 ∧ t.dhcp.netmask = 0xFFFFFF00 ∧
      (acceptedPackets isOffer s.trace).length = (acceptedPackets isOffer t.trace).length := by
  have hrun : pairRuns Op.exec aloneGuard (togetherGuard fun _ _ => true)
      (fun s t => s.dhcp.netmask = 0 ∧ t.dhcp.netmask = 0xFFFFFF00 ∧
        (acceptedPackets isOffer s.trace).length = (acceptedPackets isOffer t.trace).length)
      (afterRejected (serverReply dhcpMessageTypeAck)
        (dhcpReply 0 0x0A000001 (replyOptions dhcpMessageTypeOffer)))
      (booted zeroApplication 0 fun _ => 0) (booted zeroApplication 0 fun _ => 0) = true := by
    decide +kernel
  obtain ⟨s, t, hpaired, hcheck⟩ := paired_of_pairRuns .start (fun _ _ h => alone_of_guard h)
    (fun _ _ _ h => together_of_guard (fun hsame _ => hsame) h) hrun
  exact ⟨s, t, hpaired, of_decide_eq_true hcheck⟩

end MiniIp.Guarantees.RejectedPackets
