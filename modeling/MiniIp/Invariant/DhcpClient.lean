import MiniIp.Invariant.SoundClients

/-!
# The DHCP client as a machine of its own

`Client.task` is what one call of `dhcp_task` makes of the lease, the option record and the address of the host, given
the time and the datagram at the head of the queue of port 68. It knows nothing of packets, queues and retransmission.
`dhcpTask_refines` says that the code is this machine. The stack is in a state with the invariant `Sound`, as every
reachable one is.
-/

set_option autoImplicit false

namespace MiniIp.Invariant

open MiniIp.Source MiniIp.Library.Wp

/-- What the DHCP client reads and assigns. The backoff only decides when packets are sent. -/
structure Client where
  dhcp : Dhcp
  options : DhcpOptions
  ourIp : Ip
  ourNetmask : Ip
  deriving DecidableEq

def client (s : Stack) : Client :=
  ⟨{ s.dhcp with backoff := zeroBackoff }, s.options, s.ourIp, s.ourNetmask⟩

/-- What a call of `dhcp_task` has accepted. -/
inductive Outcome where
  | nothing | offer | ack | nack
  deriving DecidableEq

namespace Client

def setState (c : Client) (state : DhcpState) : Client := { c with dhcp := { c.dhcp with state := state } }

/-- `dhcp_read` on the datagram it finds. -/
def read (c : Client) (ourMac : Mac) : Option NetworkPacket → Bool × Client
  | none => (false, c)
  | some p =>
    let result := readDhcpPacket c.dhcp.transactionId ourMac p c.options
    (result.1, { c with options := result.2 })

/-- The record is an offer. -/
def offers (c : Client) : Prop :=
  c.options.mask &&& expectedMask = expectedMask ∧ c.options.messageType = dhcpMessageTypeOffer

instance (c : Client) : Decidable c.offers := inferInstanceAs (Decidable (_ ∧ _))

/-- What the record answers to a request. -/
def answer (c : Client) : Outcome :=
  if c.options.mask &&& expectedMask ≠ expectedMask then .nothing
  else if c.options.messageType = dhcpMessageTypeNack then .nack
  else if c.options.messageType ≠ dhcpMessageTypeAck then .nothing
  else if c.options.netmask ≠ c.dhcp.netmask ∨ c.options.serverIp ≠ c.dhcp.serverIp ∨
      c.options.yourIp ≠ c.dhcp.leasedIp then .nothing
  else .ack

/-- The client with the offered lease. -/
def takeOffer (c : Client) : Client :=
  { c with dhcp := { c.dhcp with
      netmask := c.options.netmask, serverIp := c.options.serverIp, leasedIp := c.options.yourIp } }

/-- The lease runs from now on. -/
def takeAck (now : Time) (c : Client) : Client :=
  { c with dhcp := { c.dhcp with time := now, leaseTime := c.options.leaseTime * 1000 } }

def tryReadOffer (c : Client) (ourMac : Mac) (head : Option NetworkPacket) : Client × Outcome :=
  let result := c.read ourMac head
  if result.1 = true ∧ result.2.offers then (result.2.takeOffer, .offer) else (result.2, .nothing)

def tryReadAck (c : Client) (ourMac : Mac) (now : Time) (head : Option NetworkPacket) :
    Client × Outcome :=
  let result := c.read ourMac head
  if result.1 = false then (result.2, .nothing)
  else if result.2.answer = .ack then (result.2.takeAck now, .ack)
  else (result.2, result.2.answer)

def discover (c : Client) (ourMac : Mac) (head : Option NetworkPacket) : Client × Outcome :=
  let result := c.tryReadOffer ourMac head
  if result.2 = .offer then (result.1.setState .requesting, .offer) else result

/-- The lease begins: the host takes the address. -/
def bind (c : Client) : Client :=
  { c with
    dhcp := { c.dhcp with state := .bound }
    ourIp := c.dhcp.leasedIp
    ourNetmask := c.dhcp.netmask }

def requesting (c : Client) (ourMac : Mac) (now : Time) (head : Option NetworkPacket) :
    Client × Outcome :=
  let result := c.tryReadAck ourMac now head
  if result.2 = .ack then (result.1.bind, .ack)
  else if result.2 = .nack then
    ({ result.1 with dhcp := { result.1.dhcp with
        aquisitionCount := result.1.dhcp.aquisitionCount + 1, state := .discover } }, .nack)
  else result

def renew (c : Client) (ourMac : Mac) (now : Time) (head : Option NetworkPacket) : Client × Outcome :=
  let result := c.tryReadAck ourMac now head
  if result.2 = .ack then (result.1.setState .bound, .ack)
  else if result.2 = .nack then (result.1.setState .discover, .nack)
  else result

def renewing (c : Client) (ourMac : Mac) (now : Time) (head : Option NetworkPacket) : Client × Outcome :=
  (if rebindingExpired c.dhcp now then c.setState .rebinding else c).renew ourMac now head

/-- One call of `dhcp_task`. -/
def task (c : Client) (ourMac : Mac) (now : Time) (head : Option NetworkPacket) : Client × Outcome :=
  match c.dhcp.state with
  | .disabled | .error => (c, .nothing)
  | .discover => c.discover ourMac head
  | .requesting => c.requesting ourMac now head
  | .bound => (if renewingExpired c.dhcp now then c.setState .renewing else c, .nothing)
  | .renewing => c.renewing ourMac now head
  | .rebinding =>
    (if getElapsed c.dhcp.time now ≥ c.dhcp.leaseTime then c.setState .discover else c, .nothing)

end Client

theorem discover_outcome (c : Client) (ourMac : Mac) (head : Option NetworkPacket) :
    (c.discover ourMac head).2 = .offer ↔ (c.tryReadOffer ourMac head).2 = .offer := by
  unfold Client.discover
  dsimp only
  split
  · next hoffer => exact iff_of_true rfl hoffer
  · exact Iff.rfl

theorem requesting_outcome (c : Client) (ourMac : Mac) (now : Time) (head : Option NetworkPacket) :
    (c.requesting ourMac now head).2 = (c.tryReadAck ourMac now head).2 := by
  unfold Client.requesting
  dsimp only
  split
  · next hack => exact hack.symm
  · split
    · next hnack => exact hnack.symm
    · rfl

theorem renew_outcome (c : Client) (ourMac : Mac) (now : Time) (head : Option NetworkPacket) :
    (c.renew ourMac now head).2 = (c.tryReadAck ourMac now head).2 := by
  unfold Client.renew
  dsimp only
  split
  · next hack => exact hack.symm
  · split
    · next hnack => exact hnack.symm
    · rfl

def isOffer : Event → Bool
  | .dhcpOffer => true
  | _ => false

def isAck : Event → Bool
  | .dhcpAck => true
  | _ => false

/-- The datagram that `dhcp_read` has just taken and freed. -/
def justRead : List Event → Option NetworkPacket
  | .freed _ :: .udpTaken _ _ content :: _ => some content
  | _ => none

/-- The datagrams that have been accepted with an event of a kind, the last one first. -/
def acceptedPackets (accepts : Event → Bool) : List Event → List NetworkPacket
  | [] => []
  | event :: past =>
    if accepts event then (justRead past).toList ++ acceptedPackets accepts past
    else acceptedPackets accepts past

theorem acceptedPackets_append {accepts : Event → Bool} {new past : List Event}
    (h : ∀ event ∈ new, accepts event = false) :
    acceptedPackets accepts (new ++ past) = acceptedPackets accepts past := by
  induction new with
  | nil => rfl
  | cons event new ih =>
    have hevent := h event List.mem_cons_self
    have hrest := ih fun e he => h e (List.mem_cons_of_mem _ he)
    simp [acceptedPackets, hevent, hrest]

/-- What is accepted where this is the outcome. -/
def takenFor (kind outcome : Outcome) (head : Option NetworkPacket) : List NetworkPacket :=
  if outcome = kind then head.toList else []

/-- What a computation that starts in `s` and finds `head` has accepted when it comes to `t`. -/
structure Accepted (s t : Stack) (head : Option NetworkPacket) (outcome : Outcome) : Prop where
  ack : acceptedPackets isAck t.trace = takenFor .ack outcome head ++ acceptedPackets isAck s.trace
  offer : acceptedPackets isOffer t.trace =
    takenFor .offer outcome head ++ acceptedPackets isOffer s.trace

/-- What no call of the client assigns. -/
structure SameHost (s t : Stack) : Prop where
  ourMac : t.ourMac = s.ourMac
  time : t.time = s.time

variable {limit most : ℕ} {W : Prop} {U : QueueContent} {held : List PacketId} {s t u : Stack}

theorem SameHost.trans (h : SameHost s t) (h' : SameHost t u) : SameHost s u :=
  ⟨h'.ourMac.trans h.ourMac, h'.time.trans h.time⟩

theorem takenFor_ne {kind outcome : Outcome} (h : outcome ≠ kind) (head : Option NetworkPacket) :
    takenFor kind outcome head = [] := if_neg h

theorem Accepted.outcome {head : Option NetworkPacket} {outcome : Outcome} (h : Accepted s t head .nothing)
    (hack : outcome ≠ .ack) (hoffer : outcome ≠ .offer) : Accepted s t head outcome := by
  constructor
  · rw [takenFor_ne hack]
    exact h.ack
  · rw [takenFor_ne hoffer]
    exact h.offer

/-- The datagram that has just been read is accepted as an offer. -/
theorem Accepted.offered {head : Option NetworkPacket} (h : Accepted s t head .nothing)
    (hjust : justRead t.trace = head) (htrace : u.trace = .dhcpOffer :: t.trace) :
    Accepted s u head .offer := by
  have hoffer := h.offer
  constructor
  · rw [htrace]
    exact h.ack
  · rw [htrace, acceptedPackets, if_pos (show isOffer .dhcpOffer = true from rfl), hjust, hoffer]
    rfl

/-- The datagram that has just been read is accepted as an ACK. -/
theorem Accepted.acked {head : Option NetworkPacket} (h : Accepted s t head .nothing)
    (hjust : justRead t.trace = head) (htrace : u.trace = .dhcpAck :: t.trace) :
    Accepted s u head .ack := by
  have hack := h.ack
  constructor
  · rw [htrace, acceptedPackets, if_pos (show isAck .dhcpAck = true from rfl), hjust, hack]
    rfl
  · rw [htrace]
    exact h.offer

/-- The code's answer. -/
def Outcome.answer : Outcome → Option Bool
  | .ack => some true
  | .nack => some false
  | .nothing | .offer => none

/-- One computation of the client is one step of the machine. -/
structure Refines (s t : Stack) (result : Client × Outcome) : Prop where
  client : client t = result.1
  accepted : Accepted s t (headDatagram s dhcpClientPort) result.2
  host : SameHost s t

variable {E : Halt → Stack → Prop}

/-- The datagram is taken from the queue, and the options that are read from it are stored. -/
theorem dhcpRead_refines (h : UdpTable limit s.udp) :
    wp dhcpRead
      (fun r t => (r, client t) = (client s).read s.ourMac (headDatagram s dhcpClientPort) ∧
        SameHost s t ∧ Accepted s t (headDatagram s dhcpClientPort) .nothing ∧
        (r = true → justRead t.trace = headDatagram s dhcpClientPort))
      E s := by
  unfold dhcpRead
  rw [wp_bind, wp_udpReceiveZeroCopy h]
  split
  · next hhead =>
    have hnone : headDatagram s dhcpClientPort = none := by simp [headDatagram, hhead]
    rw [hnone, wp_pure]
    exact ⟨rfl, ⟨rfl, rfl⟩, ⟨rfl, rfl⟩, by simp⟩
  · next c p hhead =>
    have hsome : headDatagram s dhcpClientPort = some (s.packets p) := by simp [headDatagram, hhead]
    rw [hsome]
    simp only [wp_bind, wp_getPacket, wp_get, wp_modify, wp_freeNetworkPacket, wp_pure]
    exact ⟨rfl, ⟨rfl, rfl⟩, ⟨rfl, rfl⟩, fun _ => rfl⟩

/-- So is `try_read_offer`. -/
theorem tryReadOffer_refines (h : UdpTable limit s.udp) :
    wp tryReadOffer
      (fun r t => Refines s t ((client s).tryReadOffer s.ourMac (headDatagram s dhcpClientPort)) ∧
        (r = true ↔ ((client s).tryReadOffer s.ourMac (headDatagram s dhcpClientPort)).2 = .offer))
      E s := by
  unfold tryReadOffer
  rw [wp_bind]
  apply wp_next (dhcpRead_refines h)
  intro r t hpost
  obtain ⟨hread, hhost, haccepted, hjust⟩ := hpost
  simp only [Client.tryReadOffer, ← hread, wp_ite, wp_pure, wp_bind, wp_get, wp_modifyDhcp, wp_emit]
  cases r with
  | false =>
    simp only [if_true, Bool.false_eq_true, false_and, if_false]
    exact ⟨⟨rfl, haccepted, hhost⟩, by simp⟩
  | true =>
    simp only [Bool.true_eq_false, if_false, true_and]
    by_cases hoffers : (client t).offers
    · have hnot : ¬ (t.options.mask &&& expectedMask ≠ expectedMask ∨
          t.options.messageType ≠ dhcpMessageTypeOffer) := by
        rw [not_or, not_not, not_not]
        exact hoffers
      rw [if_neg hnot, if_pos hoffers]
      exact ⟨⟨rfl, haccepted.offered (hjust rfl) rfl, ⟨hhost.ourMac, hhost.time⟩⟩, by simp⟩
    · have hnot : t.options.mask &&& expectedMask ≠ expectedMask ∨
          t.options.messageType ≠ dhcpMessageTypeOffer := by
        rw [← not_and_or]
        exact hoffers
      rw [if_pos hnot, if_neg hoffers]
      exact ⟨⟨rfl, haccepted, hhost⟩, by simp⟩

/-- `try_read_ack` is a step of the client on the head of its queue. -/
theorem tryReadAck_refines (h : UdpTable limit s.udp) :
    wp tryReadAck
      (fun r t =>
        Refines s t ((client s).tryReadAck s.ourMac s.time (headDatagram s dhcpClientPort)) ∧
        r = ((client s).tryReadAck s.ourMac s.time (headDatagram s dhcpClientPort)).2.answer)
      E s := by
  unfold tryReadAck
  rw [wp_bind]
  apply wp_next (dhcpRead_refines h)
  intro r t hpost
  obtain ⟨hread, hhost, haccepted, hjust⟩ := hpost
  simp only [Client.tryReadAck, ← hread, wp_ite, wp_pure, wp_bind, wp_get, wp_modifyDhcp, wp_emit,
    wp_getTime]
  cases r with
  | false => exact ⟨⟨rfl, haccepted, hhost⟩, rfl⟩
  | true =>
    have hrefused : ∀ outcome, outcome ≠ .ack → outcome ≠ .offer → (client t).answer = outcome →
        Refines s t (if (client t).answer = .ack then ((client t).takeAck s.time, .ack)
          else (client t, (client t).answer)) := by
      intro outcome hack hoffer hanswer
      rw [hanswer, if_neg hack]
      exact ⟨rfl, haccepted.outcome hack hoffer, hhost⟩
    simp only [Bool.true_eq_false, if_false]
    split
    · next hmask =>
      have hanswer : (client t).answer = .nothing := if_pos hmask
      exact ⟨hrefused _ (by simp) (by simp) hanswer, by simp [hanswer, Outcome.answer]⟩
    · next hmask =>
      split
      · next hnack =>
        have hanswer : (client t).answer = .nack := (if_neg hmask).trans (if_pos hnack)
        exact ⟨hrefused _ (by simp) (by simp) hanswer, by simp [hanswer, Outcome.answer]⟩
      · next hnack =>
        split
        · next htype =>
          have hanswer : (client t).answer = .nothing :=
            (if_neg hmask).trans ((if_neg hnack).trans (if_pos htype))
          exact ⟨hrefused _ (by simp) (by simp) hanswer, by simp [hanswer, Outcome.answer]⟩
        · next htype =>
          split
          · next hlease =>
            have hanswer : (client t).answer = .nothing :=
              (if_neg hmask).trans ((if_neg hnack).trans ((if_neg htype).trans (if_pos hlease)))
            exact ⟨hrefused _ (by simp) (by simp) hanswer, by simp [hanswer, Outcome.answer]⟩
          · next hlease =>
            have hanswer : (client t).answer = .ack :=
              (if_neg hmask).trans ((if_neg hnack).trans ((if_neg htype).trans (if_neg hlease)))
            rw [hanswer, if_pos rfl]
            refine ⟨⟨?_, haccepted.acked (hjust rfl) rfl, ⟨hhost.ourMac, hhost.time⟩⟩, rfl⟩
            rw [← hhost.time]
            rfl

/-- Sending a packet of DHCP, as `SendFrame` for other packets. -/
structure DhcpSendFrame (type : DhcpPacketType) (s t : Stack) : Prop where
  unsent : unsent t = unsent s
  trace : ∃ new, t.trace = new ++ s.trace ∧ ∀ event ∈ new, Sending event ∨ event = .dhcpSent type

variable {type : DhcpPacketType}

theorem DhcpSendFrame.trans (h : DhcpSendFrame type s t) (h' : DhcpSendFrame type t u) :
    DhcpSendFrame type s u := by
  obtain ⟨new, htrace, hnew⟩ := h.trace
  obtain ⟨new', htrace', hnew'⟩ := h'.trace
  refine ⟨h'.unsent.trans h.unsent, new' ++ new, by simp [htrace, htrace'], fun event he => ?_⟩
  rcases List.mem_append.mp he with he | he
  · exact hnew' event he
  · exact hnew event he

theorem DhcpSendFrame.ofSend (h : SendFrame False s t) : DhcpSendFrame type s t := by
  obtain ⟨new, htrace, hnew⟩ := h.trace
  exact ⟨h.unsent, new, htrace, fun event he => .inl (hnew event he)⟩

instance : IsTrans Stack (DhcpSendFrame type) := ⟨fun _ _ _ => DhcpSendFrame.trans⟩

/-- The client sends without assigning to its own state. -/
theorem dhcpSendPacket_frame (type : DhcpPacketType) :
    Within (DhcpSendFrame type) ErrorReported (dhcpSendPacket type) := by
  have hsends : ∀ {α : Type} {x : Net α}, Sends False x → Within (DhcpSendFrame type) ErrorReported x :=
    fun hx => hx.mono (fun _ _ => .ofSend) fun _ _ he => he
  exact .bind (hsends allocateNetworkPacket_delivers.sends) fun _ => .bind (hsends .get) fun _ =>
    .bind (hsends (modifyPacket_delivers _ _).sends) fun _ =>
    .bind (.modify fun s => ⟨rfl, [.dhcpSent type], rfl, by simp⟩) fun _ =>
    hsends (udpSendZeroCopy_sends _ _ _ _)

/-- A step that is none of the client's. -/
structure SameClient (s t : Stack) : Prop where
  client : client t = client s
  ourMac : t.ourMac = s.ourMac
  ack : acceptedPackets isAck t.trace = acceptedPackets isAck s.trace
  offer : acceptedPackets isOffer t.trace = acceptedPackets isOffer s.trace

theorem SameClient.ofDhcpSend (h : DhcpSendFrame type s t) : SameClient s t := by
  obtain ⟨hunsent, new, htrace, hnew⟩ := h
  simp only [Invariant.unsent, Prod.mk.injEq] at hunsent
  obtain ⟨_, hmac, hip, hnetmask, hdhcp, hoptions, _⟩ := hunsent
  constructor
  · simp [Invariant.client, hip, hnetmask, hdhcp, hoptions]
  · exact hmac
  · rw [htrace]
    apply acceptedPackets_append
    intro event he
    rcases hnew event he with hsending | rfl
    · cases event <;> first | rfl | exact hsending.elim
    · rfl
  · rw [htrace]
    apply acceptedPackets_append
    intro event he
    rcases hnew event he with hsending | rfl
    · cases event <;> first | rfl | exact hsending.elim
    · rfl

/-- What sending leaves to the client. -/
structure Untouched (s t : Stack) : Prop extends SameClient s t where
  time : t.time = s.time
  udp : t.udp = s.udp
  head : headDatagram t dhcpClientPort = headDatagram s dhcpClientPort

theorem Untouched.host (h : Untouched s t) : SameHost s t := ⟨h.ourMac, h.time⟩

theorem dhcpSendPacket_untouched (h : Sound W U limit held s) (hheld : held.length ≤ most)
    (type : DhcpPacketType) :
    wp (dhcpSendPacket type) (fun _ t => Untouched s t) (fun _ _ => True) s := by
  have hkept := dhcpSendPacket_keeps type hheld _ s h.exactContent
  apply wp_partial ((dhcpSendPacket_frame type).run hkept)
  intro _ t hpost
  obtain ⟨hexact, hframe⟩ := hpost
  have hsame := SameClient.ofDhcpSend hframe
  have hunsent := hframe.unsent
  simp only [Invariant.unsent, Prod.mk.injEq] at hunsent
  obtain ⟨hudp, _, _, _, _, _, _, htime, _⟩ := hunsent
  have hcontent : ∀ c, ∀ p ∈ (s.udp.connections c).packetQueue, t.packets p = s.packets p := by
    intro c p hp
    have hq := hexact.udpContent c p
    rw [hudp] at hq
    exact hq hp
  exact ⟨hsame, htime, hudp, headDatagram_of_kept hudp _ hcontent⟩

theorem dhcpSendOnTimeout_untouched (h : Sound W U limit held s) (type : DhcpPacketType) :
    wp (dhcpSendOnTimeout type) (fun _ t => Untouched s t) (fun _ _ => True) s := by
  unfold dhcpSendOnTimeout
  simp only [wp_bind, wp_get, wp_getTime, wp_ite, wp_pure]
  split
  · simp only [wp_random, wp_modifyDhcp]
    apply wp_next (dhcpSendPacket_untouched h (le_refl _) type)
    intro _ t ht
    exact ⟨⟨ht.client, ht.ourMac, ht.ack, ht.offer⟩, ht.time, ht.udp, ht.head⟩
  · exact ⟨⟨rfl, rfl, rfl, rfl⟩, rfl, rfl, rfl⟩

/-- Reading after sending. -/
theorem Untouched.refines {result : Client × Outcome} (h : Untouched s t) (h' : Refines t u result) :
    Refines s u result where
  client := h'.client
  accepted := by
    rw [← h.head]
    exact ⟨h.ack ▸ h'.accepted.ack, h.offer ▸ h'.accepted.offer⟩
  host := h.host.trans h'.host

/-- Assignments after the read, with the new state of the client. -/
theorem Refines.assign {result : Client × Outcome} {c : Client} {outcome : Outcome} {state : DhcpState}
    (h : Refines s u result) (houtcome : result.2 = outcome)
    (htrace : t.trace = .dhcpState state :: u.trace) (hhost : SameHost u t)
    (hclient : Invariant.client t = c) : Refines s t (c, outcome) where
  client := hclient
  accepted := by
    rw [← houtcome]
    constructor
    · rw [htrace]
      exact h.accepted.ack
    · rw [htrace]
      exact h.accepted.offer
  host := h.host.trans hhost

/-- The offer, after whatever has been sent. -/
theorem offer_after (h : UdpTable limit s.udp) (hsent : Untouched s t) :
    wp tryReadOffer
      (fun r u => Refines s u ((client s).tryReadOffer s.ourMac (headDatagram s dhcpClientPort)) ∧
        (r = true ↔ ((client s).tryReadOffer s.ourMac (headDatagram s dhcpClientPort)).2 = .offer))
      (fun _ _ => True) t := by
  have hread := tryReadOffer_refines (E := fun _ _ => True) (hsent.udp ▸ h)
  rw [hsent.client, hsent.head, hsent.host.ourMac] at hread
  exact wp_next hread fun r u hu => ⟨hsent.refines hu.1, hu.2⟩

/-- The answer, after whatever has been sent. -/
theorem answer_after (h : UdpTable limit s.udp) (hsent : Untouched s t) :
    wp tryReadAck
      (fun r u =>
        Refines s u ((client s).tryReadAck s.ourMac s.time (headDatagram s dhcpClientPort)) ∧
        r = ((client s).tryReadAck s.ourMac s.time (headDatagram s dhcpClientPort)).2.answer)
      (fun _ _ => True) t := by
  have hread := tryReadAck_refines (E := fun _ _ => True) (hsent.udp ▸ h)
  rw [hsent.client, hsent.head, hsent.host.ourMac, hsent.host.time] at hread
  exact wp_next hread fun r u hu => ⟨hsent.refines hu.1, hu.2⟩

theorem dhcpDiscoverTask_refines (h : Sound W U limit held s) :
    wp dhcpDiscoverTask
      (fun _ t => Refines s t ((client s).discover s.ourMac (headDatagram s dhcpClientPort)))
      (fun _ _ => True) s := by
  unfold dhcpDiscoverTask setDhcpState resetDhcpBackoff
  rw [wp_bind]
  apply wp_next (dhcpSendOnTimeout_untouched h .discover)
  intro _ t ht
  rw [wp_bind]
  apply wp_next (offer_after h.udp ht)
  intro r u hpost
  obtain ⟨hu, hr⟩ := hpost
  simp only [Client.discover, wp_ite, wp_bind, wp_modifyDhcp, wp_emit, wp_pure]
  generalize (client s).tryReadOffer s.ourMac (headDatagram s dhcpClientPort) = result at hu hr
  by_cases hoffer : result.2 = .offer
  · have hclient := hu.client
    rw [if_pos (hr.mpr hoffer), if_pos hoffer]
    apply hu.assign hoffer
    · rfl
    · exact ⟨rfl, rfl⟩
    · rw [← hclient]
      rfl
  · rw [if_neg (mt hr.mp hoffer), if_neg hoffer]
    exact hu

theorem dhcpRequestingTask_refines (h : Sound W U limit held s) :
    wp dhcpRequestingTask
      (fun _ t => Refines s t
        ((client s).requesting s.ourMac s.time (headDatagram s dhcpClientPort)))
      (fun _ _ => True) s := by
  unfold dhcpRequestingTask setDhcpState resetDhcpBackoff setOurIp setOurNetmask
  rw [wp_bind]
  apply wp_next (dhcpSendOnTimeout_untouched h .request)
  intro _ t ht
  rw [wp_bind]
  apply wp_next (answer_after h.udp ht)
  intro r u hpost
  obtain ⟨hu, rfl⟩ := hpost
  simp only [Client.requesting]
  generalize (client s).tryReadAck s.ourMac s.time (headDatagram s dhcpClientPort) = result at hu ⊢
  obtain ⟨c, outcome⟩ := result
  have hclient : client u = c := hu.client
  cases outcome with
  | nothing => exact hu
  | offer => exact hu
  | ack =>
    simp only [Outcome.answer, wp_bind, wp_modifyDhcp, wp_emit, wp_get, wp_modify, if_true]
    apply hu.assign rfl
    · rfl
    · exact ⟨rfl, rfl⟩
    · rw [← hclient]
      rfl
  | nack =>
    simp only [Outcome.answer, wp_bind, wp_modifyDhcp, wp_emit, reduceCtorEq, if_false, if_true]
    apply hu.assign rfl
    · rfl
    · exact ⟨rfl, rfl⟩
    · rw [← hclient]
      rfl

/-- The second half of the renewing task, from a state in which nothing but the state of the client
and the trace has changed. -/
theorem dhcpRenew_refines (h : Sound W U limit held s) :
    wp dhcpRenew
      (fun _ t => Refines s t ((client s).renew s.ourMac s.time (headDatagram s dhcpClientPort)))
      (fun _ _ => True) s := by
  unfold dhcpRenew setDhcpState
  rw [wp_bind]
  apply wp_next (dhcpSendOnTimeout_untouched h .renew)
  intro _ t ht
  rw [wp_bind]
  apply wp_next (answer_after h.udp ht)
  intro r u hpost
  obtain ⟨hu, rfl⟩ := hpost
  simp only [Client.renew]
  generalize (client s).tryReadAck s.ourMac s.time (headDatagram s dhcpClientPort) = result at hu ⊢
  obtain ⟨c, outcome⟩ := result
  have hclient : client u = c := hu.client
  cases outcome with
  | nothing => exact hu
  | offer => exact hu
  | ack =>
    simp only [Outcome.answer, wp_bind, wp_modifyDhcp, wp_emit, if_true]
    apply hu.assign rfl
    · rfl
    · exact ⟨rfl, rfl⟩
    · rw [← hclient]
      rfl
  | nack =>
    simp only [Outcome.answer, wp_bind, wp_modifyDhcp, wp_emit, reduceCtorEq, if_false, if_true]
    apply hu.assign rfl
    · rfl
    · exact ⟨rfl, rfl⟩
    · rw [← hclient]
      rfl

theorem dhcpRenewingTask_refines (h : Sound W U limit held s) :
    wp dhcpRenewingTask
      (fun _ t => Refines s t ((client s).renewing s.ourMac s.time (headDatagram s dhcpClientPort)))
      (fun _ _ => True) s := by
  unfold dhcpRenewingTask setDhcpState
  simp only [wp_bind, wp_get, wp_getTime, wp_ite, wp_modifyDhcp, wp_emit, Client.renewing]
  have hexpired : rebindingExpired (client s).dhcp s.time = rebindingExpired s.dhcp s.time := rfl
  rw [hexpired]
  split
  · -- the state is left first, and the rest runs all the same
    have hleft : Sound W U limit held (s.setDhcp { s.dhcp with state := .rebinding }) := h.congr rfl
    have hrenew := dhcpRenew_refines (hleft.observe (.dhcpState .rebinding) trivial fun _ => trivial)
    exact wp_next hrenew fun _ t ht => ⟨ht.client, ⟨ht.accepted.ack, ht.accepted.offer⟩,
      ⟨ht.host.ourMac, ht.host.time⟩⟩
  · exact dhcpRenew_refines h

/-- `dhcp_task` is the machine's step. -/
theorem dhcpTask_refines (h : Sound W U limit held s) :
    wp dhcpTask
      (fun _ t => Refines s t ((client s).task s.ourMac s.time (headDatagram s dhcpClientPort)))
      (fun _ _ => True) s := by
  have hidle : Refines s s (client s, .nothing) := ⟨rfl, ⟨rfl, rfl⟩, ⟨rfl, rfl⟩⟩
  have hclient : (client s).dhcp.state = s.dhcp.state := rfl
  unfold dhcpTask
  simp only [Client.task, hclient, wp_bind, wp_get]
  cases hstate : s.dhcp.state with
  | disabled => exact hidle
  | discover => exact dhcpDiscoverTask_refines h
  | requesting => exact dhcpRequestingTask_refines h
  | bound =>
    have hexpired : renewingExpired (client s).dhcp s.time = renewingExpired s.dhcp s.time := rfl
    simp only [dhcpBoundTask, setDhcpState, resetDhcpBackoff, hexpired, wp_bind, wp_get, wp_getTime, wp_ite,
      wp_modifyDhcp, wp_emit, wp_pure]
    split
    · apply hidle.assign rfl
      · rfl
      · exact ⟨rfl, rfl⟩
      · rfl
    · exact hidle
  | renewing => exact dhcpRenewingTask_refines h
  | rebinding =>
    have hexpired : getElapsed (client s).dhcp.time s.time ≥ (client s).dhcp.leaseTime ↔
        getElapsed s.dhcp.time s.time ≥ s.dhcp.leaseTime := Iff.rfl
    simp only [dhcpRebindingTask, setDhcpState, resetDhcpBackoff, hexpired, wp_bind, wp_get, wp_getTime,
      wp_ite, wp_modifyDhcp, wp_emit, wp_pure]
    split
    · apply hidle.assign rfl
      · rfl
      · exact ⟨rfl, rfl⟩
      · rfl
    · exact hidle
  | error => exact hidle

end MiniIp.Invariant
