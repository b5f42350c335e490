import MiniIp.Invariant.ClientBackoff
import MiniIp.Invariant.Lease
import MiniIp.Library.Paired

/-!
# Two runs of the DHCP client

Two runs in which the client is called at the same times, and receives different
things. Everything else the stack does may differ. `paired_views` says what
has to be shown of one call of `dhcp_task` for a relation to hold of every such pair.
-/

set_option autoImplicit false

namespace MiniIp.Invariant

open MiniIp.Source MiniIp.Library.Runs MiniIp.Library.Wp

/-- The client, and what it has accepted so far. -/
structure View where
  client : Client
  backoff : Backoff
  acks : List NetworkPacket
  offers : List NetworkPacket

def view (s : Stack) : View :=
  ⟨client s, s.dhcp.backoff, acceptedPackets isAck s.trace, acceptedPackets isOffer s.trace⟩

/-- `dhcp_start`, with the random number and the time it uses. -/
def Client.start (c : Client) (transactionId : UInt32) (now : Time) : Client :=
  { c with dhcp := { c.dhcp with state := .discover, transactionId := transactionId, time := now } }

/-- The view after `dhcp_start`. -/
def View.start (v : View) (transactionId : UInt32) (now : Time) : View :=
  { v with
    client := v.client.start transactionId now
    backoff := backoffInit v.backoff dhcpStartTimeout dhcpMaxTimeout dhcpJitterFraction }

/-- The view after a call of `dhcp_task`. -/
def View.task (v : View) (ourMac : Mac) (now : Time) (random : UInt32) (head : Option NetworkPacket) :
    View :=
  let result := v.client.task ourMac now head
  ⟨result.1, v.client.backoff v.backoff now random result.2, takenFor .ack result.2 head ++ v.acks, takenFor .offer result.2 head ++ v.offers⟩

/-- An operation of one run only: neither configuration nor a call of the client. -/
def Alone (_ : Stack) (op : Op) : Prop := ¬ Op.Configures op ∧ ¬ Op.RunsDhcp op

/-- An operation of both runs. Calls of the client are at the same time, and `heads` relates what
they find in the queue. -/
def Together (heads : Stack → Stack → Prop) (s t : Stack) : Op → Prop
  | .dhcpTask => s.time = t.time ∧ heads s t
  | .dhcpStart => s.time = t.time ∧ s.entropy s.drawn = t.entropy t.drawn
  | .setOurMac _ | .setOurIp _ | .setOurNetmask _ => True
  | _ => False

variable {s t s₀ : Stack} {heads : Stack → Stack → Prop}

theorem Elsewhere.view (h : Elsewhere s t) : view t = view s := by
  rw [Invariant.view, Invariant.view, h.client, h.backoff, h.ack, h.offer]

theorem dhcpStart_view :
    wp dhcpStart (fun _ t => t.ourMac = s.ourMac ∧
      view t = (view s).start (s.entropy s.drawn) s.time) (fun _ _ => True)
      s := by
  unfold dhcpStart setDhcpState
  simp only [wp_bind, wp_modifyDhcp, wp_emit, wp_random, wp_getTime]
  apply wp_next (udpListen_elsewhere _ _)
  intro _ t ht
  exact ⟨ht.ourMac, ht.view⟩

theorem dhcpTask_view (hintact : Intact False (fun _ _ _ _ => True) s) :
    wp dhcpTask (fun _ t => t.ourMac = s.ourMac ∧
      view t =
      (view s).task s.ourMac s.time (s.entropy s.drawn) (headDatagram s dhcpClientPort)) (fun _ _ => True) s := by
  obtain ⟨limit, lost, hs⟩ := hintact
  apply wp_partial (wp_and (dhcpTask_refines hs) (dhcpTask_backoff hs))
  intro _ t ht
  obtain ⟨hrefines, hbackoff⟩ := ht
  constructor
  · exact hrefines.host.ourMac
  · rw [view, hrefines.client, hbackoff, hrefines.accepted.ack, hrefines.accepted.offer]
    rfl

/-- What two runs have in common. -/
structure Related (R : View → View → Prop) (s t : Stack) : Prop where
  intact : Intact False (fun _ _ _ _ => True) s
  intact' : Intact False (fun _ _ _ _ => True) t
  ourMac : s.ourMac = t.ourMac
  views : R (view s) (view t)

/-- A relation that is kept by the steps of the client. -/
structure Closed (R : View → View → Prop) (heads : Stack → Stack → Prop) : Prop where
  start : ∀ v v' transactionId now, R v v' →
    R (v.start transactionId now) (v'.start transactionId now)
  ip : ∀ v v' ip, R v v' →
    R { v with client := { v.client with ourIp := ip } } { v' with client := { v'.client with ourIp := ip } }
  netmask : ∀ v v' netmask, R v v' →
    R { v with client := { v.client with ourNetmask := netmask } }
      { v' with client := { v'.client with ourNetmask := netmask } }
  task : ∀ s t, R (view s) (view t) → s.ourMac = t.ourMac → s.time = t.time → heads s t →
    R ((view s).task s.ourMac s.time (s.entropy s.drawn) (headDatagram s dhcpClientPort))
      ((view t).task t.ourMac t.time (t.entropy t.drawn) (headDatagram t dhcpClientPort))

theorem booted_view (application : Application) (time : Time) (entropy : Nat → UInt32) :
    view (booted application time entropy) =
      ⟨client (booted application time entropy), (booted application time entropy).dhcp.backoff, [], []⟩ := by
  simp only [view, booted_fresh.trace]
  rfl

theorem exec_keeps_intact (hintact : Intact False (fun _ _ _ _ => True) s) (op : Op) :
    wp op.exec (fun _ t => Intact False (fun _ _ _ _ => True) t) (fun _ _ => True) s :=
  wp_partial (exec_intact hintact (fun w => w.elim) fun _ => brings_any s) fun _ _ ht => ht

/-- Two runs with related heads of the client's queue keep a relation that the steps of the client keep. -/
theorem paired_views {R : View → View → Prop} (hR : Closed R heads)
    (hintact : Intact False (fun _ _ _ _ => True) s₀) (hstart : R (view s₀) (view s₀))
    (h : Paired Op.exec Alone (Together heads) s₀ s t) : Related R s t := by
  apply h.relation
  · exact ⟨hintact, hintact, rfl, hstart⟩
  · intro s t op hrelated halone
    apply wp_partial (wp_and (exec_keeps_intact hrelated.intact op) (exec_elsewhere halone.1 halone.2))
    intro _ s' hs'
    obtain ⟨hkept, hsame⟩ := hs'
    exact ⟨hkept, hrelated.intact', hsame.ourMac.trans hrelated.ourMac, hsame.view ▸ hrelated.views⟩
  · intro s t op hrelated halone
    apply wp_partial (wp_and (exec_keeps_intact hrelated.intact' op) (exec_elsewhere halone.1 halone.2))
    intro _ t' ht'
    obtain ⟨hkept, hsame⟩ := ht'
    exact ⟨hrelated.intact, hkept, hrelated.ourMac.trans hsame.ourMac.symm, hsame.view ▸ hrelated.views⟩
  · intro s t op hrelated htogether
    -- each run is described by itself, and the two descriptions are put together
    have htwice : ∀ {P Q : Stack → Prop}, wp op.exec (fun _ s' => P s') (fun _ _ => True) s →
        wp op.exec (fun _ t' => Q t') (fun _ _ => True) t →
        (∀ s' t', P s' → Q t' → s'.ourMac = t'.ourMac ∧ R (view s') (view t')) →
        wp op.exec (fun _ s' => wp op.exec (fun _ t' => Related R s' t') (fun _ _ => True) t)
          (fun _ _ => True) s := by
      intro P Q hP hQ hPQ
      apply wp_partial (wp_and (exec_keeps_intact hrelated.intact op) hP)
      intro _ s' hs'
      apply wp_partial (wp_and (exec_keeps_intact hrelated.intact' op) hQ)
      intro _ t' ht'
      obtain ⟨hmac, hviews⟩ := hPQ s' t' hs'.2 ht'.2
      exact ⟨hs'.1, ht'.1, hmac, hviews⟩
    have hmac := hrelated.ourMac
    have hviews := hrelated.views
    cases op with
    | dhcpTask =>
      apply htwice (dhcpTask_view hrelated.intact) (dhcpTask_view hrelated.intact')
      intro s' t' hs' ht'
      rw [hs'.1, hs'.2, ht'.1, ht'.2]
      exact ⟨hmac, hR.task s t hviews hmac htogether.1 htogether.2⟩
    | dhcpStart =>
      apply htwice dhcpStart_view dhcpStart_view
      intro s' t' hs' ht'
      rw [hs'.1, hs'.2, ht'.1, ht'.2, htogether.1, htogether.2]
      exact ⟨hmac, hR.start _ _ _ _ hviews⟩
    | setOurMac mac =>
      apply htwice (P := fun s' => s'.ourMac = mac ∧ view s' = view s)
        (Q := fun t' => t'.ourMac = mac ∧ view t' = view t) ⟨rfl, rfl⟩ ⟨rfl, rfl⟩
      intro s' t' hs' ht'
      rw [hs'.1, hs'.2, ht'.1, ht'.2]
      exact ⟨rfl, hviews⟩
    | setOurIp ip =>
      have hset : ∀ u : Stack, wp (setOurIp ip) (fun _ u' => u'.ourMac = u.ourMac ∧
          view u' = { view u with client := { client u with ourIp := ip } }) (fun _ _ => True) u :=
        fun _ => ⟨rfl, rfl⟩
      apply htwice (hset s) (hset t)
      intro s' t' hs' ht'
      rw [hs'.1, hs'.2, ht'.1, ht'.2]
      exact ⟨hmac, hR.ip _ _ ip hviews⟩
    | setOurNetmask netmask =>
      have hset : ∀ u : Stack, wp (setOurNetmask netmask) (fun _ u' => u'.ourMac = u.ourMac ∧
          view u' = { view u with client := { client u with ourNetmask := netmask } })
          (fun _ _ => True) u := fun _ => ⟨rfl, rfl⟩
      apply htwice (hset s) (hset t)
      intro s' t' hs' ht'
      rw [hs'.1, hs'.2, ht'.1, ht'.2]
      exact ⟨hmac, hR.netmask _ _ netmask hviews⟩
    | _ => exact htogether.elim

variable {Q : Client → Client → Prop} {result result' : Client × Outcome} {c c' : Client} {ourMac : Mac}
  {now : Time} {head head' : Option NetworkPacket}

/-- The same has been accepted, and the clients are related. -/
structure SameResult (Q : Client → Client → Prop) (result result' : Client × Outcome) : Prop where
  clients : Q result.1 result'.1
  outcome : result.2 = result'.2

/-- Related clients have the same lease, and assignments to the lease and the address of the host keep
them related. -/
structure Congruence (Q : Client → Client → Prop) : Prop where
  dhcp : ∀ {c c'}, Q c c' → c.dhcp = c'.dhcp
  setDhcp : ∀ {c c'} d, Q c c' → Q { c with dhcp := d } { c' with dhcp := d }
  setIp : ∀ {c c'} ip, Q c c' → Q { c with ourIp := ip } { c' with ourIp := ip }
  setNetmask : ∀ {c c'} netmask, Q c c' → Q { c with ourNetmask := netmask } { c' with ourNetmask := netmask }

namespace Congruence

theorem setState (hQ : Congruence Q) (h : Q c c') (state : DhcpState) : Q (c.setState state) (c'.setState state) := by
  unfold Client.setState
  rw [hQ.dhcp h]
  exact hQ.setDhcp _ h

theorem start (hQ : Congruence Q) (h : Q c c') (transactionId : UInt32) (now : Time) :
    Q (c.start transactionId now) (c'.start transactionId now) := by
  unfold Client.start
  rw [hQ.dhcp h]
  exact hQ.setDhcp _ h

theorem bind (hQ : Congruence Q) (h : Q c c') : Q c.bind c'.bind := by
  unfold Client.bind
  rw [hQ.dhcp h]
  exact hQ.setNetmask _ (hQ.setIp _ (hQ.setDhcp _ h))

theorem discover (hQ : Congruence Q)
    (hread : SameResult Q (c.tryReadOffer ourMac head) (c'.tryReadOffer ourMac head')) :
    SameResult Q (c.discover ourMac head) (c'.discover ourMac head') := by
  unfold Client.discover
  dsimp only
  rw [← hread.outcome]
  split
  · exact ⟨hQ.setState hread.clients .requesting, rfl⟩
  · exact hread

theorem requesting (hQ : Congruence Q)
    (hread : SameResult Q (c.tryReadAck ourMac now head) (c'.tryReadAck ourMac now head')) :
    SameResult Q (c.requesting ourMac now head) (c'.requesting ourMac now head') := by
  unfold Client.requesting
  dsimp only
  rw [← hread.outcome, ← hQ.dhcp hread.clients]
  split
  · exact ⟨hQ.bind hread.clients, rfl⟩
  · split
    · exact ⟨hQ.setDhcp _ hread.clients, rfl⟩
    · exact hread

theorem renew (hQ : Congruence Q)
    (hread : SameResult Q (c.tryReadAck ourMac now head) (c'.tryReadAck ourMac now head')) :
    SameResult Q (c.renew ourMac now head) (c'.renew ourMac now head') := by
  unfold Client.renew
  dsimp only
  rw [← hread.outcome]
  split
  · exact ⟨hQ.setState hread.clients .bound, rfl⟩
  · split
    · exact ⟨hQ.setState hread.clients .discover, rfl⟩
    · exact hread

/-- One call of `dhcp_task` on related clients, if the reads are related. -/
theorem task (hQ : Congruence Q) (h : Q c c')
    (hoffer : c.dhcp.state = .discover →
      SameResult Q (c.tryReadOffer ourMac head) (c'.tryReadOffer ourMac head'))
    (hack : c.dhcp.state = .requesting ∨ c.dhcp.state = .renewing → ∀ state,
      SameResult Q ((c.setState state).tryReadAck ourMac now head)
        ((c'.setState state).tryReadAck ourMac now head')) :
    SameResult Q (c.task ourMac now head) (c'.task ourMac now head') := by
  have hown : c.dhcp.state = .requesting ∨ c.dhcp.state = .renewing →
      SameResult Q (c.tryReadAck ourMac now head) (c'.tryReadAck ourMac now head') := by
    intro hstate
    have hread := hack hstate c.dhcp.state
    rw [show c'.setState c.dhcp.state = c' by rw [hQ.dhcp h]; rfl] at hread
    exact hread
  unfold Client.task
  rw [← hQ.dhcp h]
  cases hstate : c.dhcp.state with
  | disabled => exact ⟨h, rfl⟩
  | error => exact ⟨h, rfl⟩
  | discover => exact hQ.discover (hoffer hstate)
  | requesting => exact hQ.requesting (hown (.inl hstate))
  | bound =>
    dsimp only
    split
    · exact ⟨hQ.setState h .renewing, rfl⟩
    · exact ⟨h, rfl⟩
  | renewing =>
    simp only [Client.renewing, ← hQ.dhcp h]
    split
    · exact hQ.renew (hack (.inr hstate) .rebinding)
    · exact hQ.renew (hown (.inr hstate))
  | rebinding =>
    dsimp only
    split
    · exact ⟨hQ.setState h .discover, rfl⟩
    · exact ⟨h, rfl⟩

end Congruence

/-- Check an operation of one run. -/
def aloneGuard (_ : Stack) : Op → Bool
  | .dhcpStart | .dhcpTask | .setOurMac _ | .setOurIp _ | .setOurNetmask _ => false
  | _ => true

theorem alone_of_guard {op : Op} (h : aloneGuard s op = true) : Alone s op := by
  cases op <;> first | exact ⟨id, id⟩ | cases h

end MiniIp.Invariant
