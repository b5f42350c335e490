import MiniIp.Invariant.DhcpServer
import MiniIp.Invariant.SameDatagram

/-!
# DHCP decisions depend only on the datagram

Two runs in which the datagrams for the client have the same payloads, whatever stands behind
the payloads in the buffers. Every call of `try_read_offer` and `try_read_ack`
(dhcp.c:340-389) gives the same result, and `dhcp` is the same.
-/

set_option autoImplicit false

namespace MiniIp.Guarantees.ResidueIndependence

open MiniIp.Source MiniIp.Invariant MiniIp.Library.Runs MiniIp.Library.Wp

variable {c c' : Client} {p p' : NetworkPacket} {ourMac : Mac} {now : Time}
  {head head' : Option NetworkPacket}

/-- What the client has done in two runs. -/
structure SameDecisions (v v' : View) : Prop where
  alike : Alike v.client v'.client
  backoff : v.backoff = v'.backoff
  acks : List.Forall₂ SameDatagram v.acks v'.acks
  offers : List.Forall₂ SameDatagram v.offers v'.offers
  long : ∀ p ∈ v.acks ++ v.offers, 240 < p.length

/-- The client is called with the same datagram, and draws the same random number. -/
def SameReception (s t : Stack) : Prop :=
  s.entropy s.drawn = t.entropy t.drawn ∧ SameHeads s t

/-- What is accepted has options. -/
theorem takenFor_long {kind : Outcome} (hkind : kind ≠ .nothing) :
    ∀ p ∈ takenFor kind (c.task ourMac now head).2 head, 240 < p.length := by
  intro p hp
  unfold takenFor at hp
  split at hp
  · next haccepted =>
    cases head with
    | none => cases hp
    | some q =>
      have hpq : p = q := by simpa using hp
      rw [hpq]
      by_contra hlong
      have hshort : ∀ r ∈ some q, r.length ≤ 240 := by
        intro r hr
        rw [← Option.some.inj hr]
        omega
      rw [task_short hshort] at haccepted
      exact hkind haccepted.symm
  · cases hp

theorem closed_sameDecisions : Closed SameDecisions SameReception where
  start v v' transactionId now h := by
    constructor
    · exact alike_congruence.start h.alike transactionId now
    · simp only [View.start, h.backoff]
    · exact h.acks
    · exact h.offers
    · exact h.long
  ip v v' ip h := ⟨alike_congruence.setIp ip h.alike, h.backoff, h.acks, h.offers, h.long⟩
  netmask v v' netmask h :=
    ⟨alike_congruence.setNetmask netmask h.alike, h.backoff, h.acks, h.offers, h.long⟩
  task s t h hmac htime hheads := by
    obtain ⟨hrandom, hheads⟩ := hheads
    have htask : SameResult Alike ((view s).client.task s.ourMac s.time (headDatagram s dhcpClientPort))
        ((view t).client.task s.ourMac s.time (headDatagram t dhcpClientPort)) := by
      apply alike_congruence.task h.alike
      · exact fun _ => tryReadOffer_alike s.ourMac h.alike hheads
      · exact fun _ state => tryReadAck_alike s.ourMac s.time (alike_congruence.setState h.alike state) hheads
    rw [← hmac, ← htime, ← hrandom]
    constructor
    · exact htask.clients
    · simp only [View.task]
      rw [← htask.outcome, h.backoff]
      unfold Client.backoff
      rw [h.alike.dhcp]
    · simp only [View.task]
      rw [← htask.outcome]
      exact takenFor_same hheads h.acks
    · simp only [View.task]
      rw [← htask.outcome]
      exact takenFor_same hheads h.offers
    · intro p hp
      simp only [View.task, List.mem_append] at hp
      rcases hp with (hp | hp) | (hp | hp)
      · exact takenFor_long (by simp) p hp
      · exact h.long p (List.mem_append_left _ hp)
      · exact takenFor_long (by simp) p hp
      · exact h.long p (List.mem_append_right _ hp)

variable {application : Application} {time : Time} {entropy : Nat → UInt32} {s t : Stack}

/-- A call in two runs returns the same, and leaves the same `dhcp`. -/
def SameRead {α : Type} (x : Net α) (s t : Stack) : Prop :=
  wp x (fun r s' => wp x (fun r' t' => r = r' ∧ s'.dhcp = t'.dhcp) (fun _ _ => False) t)
    (fun _ _ => False) s

theorem sameDhcp (hdhcp : (client s).dhcp = (client t).dhcp) (hbackoff : s.dhcp.backoff = t.dhcp.backoff) :
    s.dhcp = t.dhcp :=
  calc s.dhcp = { (client s).dhcp with backoff := s.dhcp.backoff } := rfl
    _ = { (client t).dhcp with backoff := t.dhcp.backoff } := by rw [hdhcp, hbackoff]
    _ = t.dhcp := rfl

theorem sameRead {α : Type} {x : Net α} {result result' : α × Client} {backoff : Backoff}
    (hx : wp x (fun r u => (r, client u) = result ∧ u.dhcp.backoff = backoff) (fun _ _ => False) s)
    (hx' : wp x (fun r u => (r, client u) = result' ∧ u.dhcp.backoff = backoff) (fun _ _ => False) t)
    (hresult : result.1 = result'.1) (halike : Alike result.2 result'.2) : SameRead x s t := by
  apply wp_next hx
  intro r u hu
  apply wp_next hx'
  intro r' u' hu'
  obtain ⟨hr, hbackoff⟩ := hu
  obtain ⟨hr', hbackoff'⟩ := hu'
  rw [← hr, ← hr'] at hresult halike
  exact ⟨hresult, sameDhcp halike.dhcp (hbackoff.trans hbackoff'.symm)⟩

theorem tryReadOffer_runs {limit : ℕ} (h : UdpTable limit s.udp) :
    wp tryReadOffer
      (fun r u => (r, client u) =
          (decide (((client s).tryReadOffer s.ourMac (headDatagram s dhcpClientPort)).2 = .offer),
            ((client s).tryReadOffer s.ourMac (headDatagram s dhcpClientPort)).1) ∧
        u.dhcp.backoff = s.dhcp.backoff)
      (fun _ _ => False) s := by
  apply wp_mono (wp_and (tryReadOffer_refines (E := fun _ _ => False) h)
    (tryReadOffer_backoff (E := fun _ _ => False) h))
  · intro r u hu
    obtain ⟨⟨hrefines, hr⟩, hbackoff⟩ := hu
    have hdecide : decide (((client s).tryReadOffer s.ourMac (headDatagram s dhcpClientPort)).2 = .offer) = r := by
      cases r with
      | true => exact decide_eq_true (hr.mp rfl)
      | false => exact decide_eq_false fun hoffer => Bool.false_ne_true (hr.mpr hoffer)
    rw [hdecide, hrefines.client]
    exact ⟨rfl, hbackoff⟩
  · intro _ _ hu
    exact hu.1

theorem tryReadAck_runs {limit : ℕ} (h : UdpTable limit s.udp) :
    wp tryReadAck
      (fun r u => (r, client u) =
          (((client s).tryReadAck s.ourMac s.time (headDatagram s dhcpClientPort)).2.answer,
            ((client s).tryReadAck s.ourMac s.time (headDatagram s dhcpClientPort)).1) ∧
        u.dhcp.backoff = s.dhcp.backoff)
      (fun _ _ => False) s := by
  apply wp_mono (wp_and (tryReadAck_refines (E := fun _ _ => False) h)
    (tryReadAck_backoff (E := fun _ _ => False) h))
  · intro r u hu
    obtain ⟨⟨hrefines, rfl⟩, hbackoff⟩ := hu
    rw [hrefines.client]
    exact ⟨rfl, hbackoff⟩
  · intro _ _ hu
    exact hu.1

theorem related_of_paired
    (h : Paired Op.exec Alone (Together SameReception) (booted application time entropy) s t) :
    Related SameDecisions s t := by
  have hbooted : Reaches Op.exec (fun _ _ => True) (booted application time entropy)
      (booted application time entropy) := .start
  apply paired_views closed_sameDecisions (reaches_intact False hbooted fun w => w.elim) _ h
  rw [booted_view]
  exact ⟨.refl _, rfl, .nil, .nil, by simp⟩

/-- Two runs whose datagrams have the same payloads: the client accepts the same, has the same
record, and its next read gives the same result. No datagram without options is accepted. -/
theorem decisions_depend_on_datagram
    (h : Paired Op.exec Alone (Together SameReception) (booted application time entropy) s t) :
    s.dhcp = t.dhcp ∧
      List.Forall₂ SameDatagram (acceptedPackets isOffer s.trace) (acceptedPackets isOffer t.trace) ∧
      List.Forall₂ SameDatagram (acceptedPackets isAck s.trace) (acceptedPackets isAck t.trace) ∧
      (s.time = t.time → SameHeads s t → SameRead tryReadOffer s t ∧ SameRead tryReadAck s t) ∧
      (∀ p ∈ acceptedPackets isAck s.trace ++ acceptedPackets isOffer s.trace, 241 ≤ p.length) ∧
      ((∀ p ∈ headDatagram s dhcpClientPort, p.length < 241) →
        wp tryReadOffer (fun r _ => r = false) (fun _ _ => False) s ∧
          wp tryReadAck (fun r _ => r = none) (fun _ _ => False) s) := by
  have hrelated := related_of_paired h
  obtain ⟨limit, lost, hs⟩ := hrelated.intact
  obtain ⟨limit', lost', ht⟩ := hrelated.intact'
  have hviews := hrelated.views
  have halike : Alike (client s) (client t) := hviews.alike
  constructor
  · exact sameDhcp halike.dhcp hviews.backoff
  constructor
  · exact hviews.offers
  constructor
  · exact hviews.acks
  constructor
  · intro htime hheads
    have hoffer := tryReadOffer_alike s.ourMac halike hheads
    have hack := tryReadAck_alike s.ourMac s.time halike hheads
    have hofferRun := tryReadOffer_runs ht.udp
    have hackRun := tryReadAck_runs ht.udp
    have hbackoff : s.dhcp.backoff = t.dhcp.backoff := hviews.backoff
    rw [← hrelated.ourMac, ← hbackoff] at hofferRun hackRun
    rw [← htime] at hackRun
    constructor
    · exact sameRead (tryReadOffer_runs hs.udp) hofferRun (by rw [hoffer.outcome]) hoffer.clients
    · exact sameRead (tryReadAck_runs hs.udp) hackRun (by rw [hack.outcome]) hack.clients
  constructor
  · exact hviews.long
  · intro hshort
    have huseless := (read_short (client s) s.ourMac fun p hp => Int.lt_add_one_iff.mp (hshort p hp)).2
    constructor
    · apply wp_next (tryReadOffer_runs hs.udp)
      intro r u hu
      rw [tryReadOffer_useless huseless] at hu
      exact congrArg Prod.fst hu.1
    · apply wp_next (tryReadAck_runs hs.udp)
      intro r u hu
      rw [tryReadAck_useless huseless] at hu
      exact congrArg Prod.fst hu.1

def togetherGuard (s t : Stack) : Op → Bool
  | .dhcpTask => decide (s.time = t.time ∧ s.entropy s.drawn = t.entropy t.drawn) &&
    headsGuard (headDatagram s dhcpClientPort) (headDatagram t dhcpClientPort)
  | .dhcpStart => s.time = t.time ∧ s.entropy s.drawn = t.entropy t.drawn
  | _ => false

theorem together_of_guard {op : Op} (h : togetherGuard s t op = true) :
    Together SameReception s t op := by
  cases op with
  | dhcpTask =>
    obtain ⟨hequal, hheads⟩ := Bool.and_eq_true_iff.mp h
    obtain ⟨htime, hrandom⟩ := of_decide_eq_true hequal
    exact ⟨htime, hrandom, sameDatagram_of_guard hheads⟩
  | dhcpStart =>
    obtain ⟨htime, hrandom⟩ := of_decide_eq_true h
    exact ⟨htime, hrandom⟩
  | _ => cases h

/-- An offer, with the residue of another frame behind it in the buffer of one run. -/
def receivesOffer : List (Turn Op) :=
  [.both .dhcpStart,
    .left (.deliverUdp 0 dhcpServerPort dhcpClientPort (serverReply dhcpMessageTypeOffer)),
    .left .receive,
    .right (.deliver 0 1024
      (udpFrame dhcpServerPort dhcpClientPort (serverReply dhcpMessageTypeOffer) ++ [1, 2, 3])),
    .right .receive, .both .dhcpTask]

theorem decisions_depend_on_datagram_offer :
    ∃ s t, Paired Op.exec Alone (Together SameReception) (booted zeroApplication 0 fun _ => 0) s t ∧
      s.dhcp.state = .requesting ∧ s.dhcp = t.dhcp := by
  have hrun : pairRuns Op.exec aloneGuard togetherGuard (fun s _ => s.dhcp.state = .requesting)
      receivesOffer (booted zeroApplication 0 fun _ => 0) (booted zeroApplication 0 fun _ => 0) = true := by
    decide +kernel
  obtain ⟨s, t, hpaired, hcheck⟩ := paired_of_pairRuns .start (fun _ _ h => alone_of_guard h)
    (fun _ _ _ h => together_of_guard h) hrun
  exact ⟨s, t, hpaired, of_decide_eq_true hcheck, (decisions_depend_on_datagram hpaired).1⟩

end MiniIp.Guarantees.ResidueIndependence
