import MiniIp.Invariant.ApplicationFrame
import MiniIp.Invariant.DhcpClient
import MiniIp.Invariant.OptionGrammar
import MiniIp.Invariant.SoundRun

/-!
# The lease and the packets it comes from

A client in one of the three states in which `dhcp_is_done` holds uses the address
and the netmask it has been offered, and the last ACK it has accepted confirms them.

The message type and the server identifier of a packet are here what `dhcp_read` takes for them. By the grammar
of the options they may be others, where the options begin with a pad.
-/

set_option autoImplicit false

namespace MiniIp.Invariant

open MiniIp.Source MiniIp.Library.Runs MiniIp.Library.Wp

/-- `dhcp_read` takes the packet for one of this type. -/
def ReadType (p : NetworkPacket) (type : UInt8) : Prop := ∃ f, OptionsRead p f ∧ f.messageType = some type

/-- The packet is for this client and address, and `dhcp_read` takes it for an ACK of this server. -/
structure Confirms (transactionId : UInt32) (ourMac : Mac) (ip serverIp : Ip) (p : NetworkPacket) :
    Prop where
  transactionId : readBe32 p.data (p.index + 4) = transactionId
  clientMac : readMac p.data (p.index + 28) = ourMac
  yourIp : readBe32 p.data (p.index + 16) = ip
  options : ∃ f, OptionsRead p f ∧ f.messageType = some dhcpMessageTypeAck ∧ f.serverIp = some serverIp

theorem Confirms.type {transactionId : UInt32} {ourMac : Mac} {ip serverIp : Ip} {p : NetworkPacket}
    (h : Confirms transactionId ourMac ip serverIp p) : ReadType p dhcpMessageTypeAck := by
  obtain ⟨f, hf, htype, _⟩ := h.options
  exact ⟨f, hf, htype⟩

/-- `dhcp_read` takes the packet for an OFFER of this server. -/
def Offers (p : NetworkPacket) (serverIp : Ip) : Prop :=
  ∃ f, OptionsRead p f ∧ f.messageType = some dhcpMessageTypeOffer ∧ f.serverIp = some serverIp

variable {transactionId : UInt32} {ourMac : Mac} {p : NetworkPacket} {o o' : DhcpOptions}
  {c : Client} {now : Time} {head : Option NetworkPacket}

theorem verifyDhcpHeader_true {memory : Memory} {header : Int}
    (h : verifyDhcpHeader transactionId ourMac memory header = true) :
    readBe32 memory (header + 4) = transactionId ∧ readMac memory (header + 28) = ourMac := by
  simp only [verifyDhcpHeader, ne_eq, ite_not, Bool.if_false_right, Bool.and_eq_true, decide_eq_true_eq] at h
  exact ⟨h.2.2.2.2.1, h.2.2.2.2.2.1⟩

theorem expected_bits {mask : ℕ} (h : mask &&& expectedMask = expectedMask) :
    mask.testBit 0 = true ∧ mask.testBit 3 = true ∧ mask.testBit 4 = true := by
  have hbit : ∀ k, expectedMask.testBit k = true → mask.testBit k = true := by
    intro k hk
    rw [← h, Nat.testBit_and, Bool.and_eq_true] at hk
    exact hk.1
  exact ⟨hbit 0 (by decide), hbit 3 (by decide), hbit 4 (by decide)⟩

/-- `dhcp_read` accepts the datagram and leaves the record `o`. -/
def Reads (c : Client) (ourMac : Mac) (p : NetworkPacket) (o : DhcpOptions) : Prop :=
  readDhcpPacket c.dhcp.transactionId ourMac p c.options = (true, o)

theorem read_cases (c : Client) (ourMac : Mac) (head : Option NetworkPacket) :
    (c.read ourMac head).1 = false ∧ (∃ o, (c.read ourMac head).2 = { c with options := o }) ∨
      (c.read ourMac head).1 = true ∧ ∃ p o, head = some p ∧ Reads c ourMac p o ∧
        (c.read ourMac head).2 = { c with options := o } := by
  cases head with
  | none => exact .inl ⟨rfl, c.options, rfl⟩
  | some p =>
    cases hread : readDhcpPacket c.dhcp.transactionId ourMac p c.options with
    | mk accepted o =>
      cases accepted with
      | false => exact .inl ⟨by simp [Client.read, hread], o, by simp [Client.read, hread]⟩
      | true => exact .inr ⟨by simp [Client.read, hread], p, o, rfl, hread, by simp [Client.read, hread]⟩

/-- An offer is taken, or nothing but the record changes. -/
theorem tryReadOffer_cases (c : Client) (ourMac : Mac) (head : Option NetworkPacket) :
    (∃ o, c.tryReadOffer ourMac head = ({ c with options := o }, .nothing)) ∨
      ∃ p o, head = some p ∧ Reads c ourMac p o ∧ { c with options := o }.offers ∧
        c.tryReadOffer ourMac head = ({ c with options := o }.takeOffer, .offer) := by
  unfold Client.tryReadOffer
  rcases read_cases c ourMac head with ⟨hno, o, ho⟩ | ⟨hyes, p, o, hp, hreads, ho⟩
  · exact .inl ⟨o, by simp [hno, ho]⟩
  · by_cases hoffers : { c with options := o }.offers
    · exact .inr ⟨p, o, hp, hreads, hoffers, by simp [hyes, ho, hoffers]⟩
    · exact .inl ⟨o, by simp [ho, hoffers]⟩

/-- An answer that is an ACK agrees with what has been offered. -/
theorem answer_ack (h : c.answer = .ack) :
    c.options.mask &&& expectedMask = expectedMask ∧ c.options.messageType = dhcpMessageTypeAck ∧
      c.options.netmask = c.dhcp.netmask ∧ c.options.serverIp = c.dhcp.serverIp ∧
      c.options.yourIp = c.dhcp.leasedIp := by
  unfold Client.answer at h
  split at h
  · cases h
  · next hmask =>
    split at h
    · cases h
    · split at h
      · cases h
      · next htype =>
        split at h
        · cases h
        · next hlease =>
          simp only [not_or, not_not] at hmask htype hlease
          exact ⟨hmask, htype, hlease⟩

/-- An ACK is taken, or nothing but the record changes. -/
theorem tryReadAck_cases (c : Client) (ourMac : Mac) (now : Time) (head : Option NetworkPacket) :
    (∃ o outcome, outcome ≠ .ack ∧ outcome ≠ .offer ∧
        c.tryReadAck ourMac now head = ({ c with options := o }, outcome)) ∨
      ∃ p o, head = some p ∧ Reads c ourMac p o ∧ { c with options := o }.answer = .ack ∧
        c.tryReadAck ourMac now head = ({ c with options := o }.takeAck now, .ack) := by
  unfold Client.tryReadAck
  rcases read_cases c ourMac head with ⟨hno, o, ho⟩ | ⟨hyes, p, o, hp, hreads, ho⟩
  · exact .inl ⟨o, .nothing, by simp, by simp, by simp [hno, ho]⟩
  · by_cases hack : { c with options := o }.answer = .ack
    · exact .inr ⟨p, o, hp, hreads, hack, by simp [hyes, ho, hack]⟩
    · refine .inl ⟨o, { c with options := o }.answer, hack, ?_, by simp [hyes, ho, hack]⟩
      unfold Client.answer
      split_ifs
      all_goals simp

/-- The client has an offer that it has accepted. -/
def HasOffer (c : Client) : Prop :=
  c.dhcp.state = .requesting ∨ dhcpIsDone c.dhcp = true

/-- `acks` and `offers` are the packets accepted as such, the last one first. -/
structure Leased (c : Client) (ourMac : Mac) (acks offers : List NetworkPacket) : Prop where
  offered : HasOffer c → ∃ p, offers.head? = some p ∧ Offers p c.dhcp.serverIp
  address : dhcpIsDone c.dhcp = true → c.ourIp = c.dhcp.leasedIp
  netmask : dhcpIsDone c.dhcp = true → c.ourNetmask = c.dhcp.netmask
  confirmed : dhcpIsDone c.dhcp = true → ∃ p, acks.head? = some p ∧
    Confirms c.dhcp.transactionId ourMac c.dhcp.leasedIp c.dhcp.serverIp p

/-- The result of a step, with the packets that have then been accepted. -/
def LeasedAfter (ourMac : Mac) (head : Option NetworkPacket) (acks offers : List NetworkPacket)
    (result : Client × Outcome) : Prop :=
  Leased result.1 ourMac (takenFor .ack result.2 head ++ acks) (takenFor .offer result.2 head ++ offers)

variable {acks offers : List NetworkPacket}

/-- What the record of an accepted packet marks, the packet says. -/
theorem Reads.readAs (h : Reads c ourMac p o) (hmask : o.mask &&& expectedMask = expectedMask) :
    o.yourIp = readBe32 p.data (p.index + 16) ∧ ∃ f, ReadAs c.dhcp.transactionId ourMac p f ∧
      f.serverIp = some o.serverIp ∧ f.messageType = some o.messageType := by
  have hlong : 240 < p.length := by
    by_contra hshort
    rcases readDhcpPacket_short c.dhcp.transactionId ourMac c.options (not_lt.mp hshort) with hno | hunmarked
    · rw [Reads, hno] at h
      cases h
    · rw [Reads] at h
      rw [h] at hunmarked
      have hunmarked : o = _ := hunmarked
      rw [hunmarked] at hmask
      have hzero : (0 : ℕ) &&& expectedMask = expectedMask := hmask
      exact absurd hzero (by decide)
  obtain ⟨f, hf, rfl⟩ := (readDhcpPacket_iff hlong).mp h
  have hmarked : f.mask &&& expectedMask = expectedMask := by
    have hzero : (f.record (clearedOptions p c.options)).mask = f.mask := Nat.zero_or f.mask
    rwa [hzero] at hmask
  obtain ⟨hserver, htype, _⟩ := (expectedMask_iff f).mp hmarked
  obtain ⟨serverIp, hserver⟩ := Option.isSome_iff_exists.mp hserver
  obtain ⟨type, htype⟩ := Option.isSome_iff_exists.mp htype
  refine ⟨rfl, f, hf, ?_, ?_⟩
  · rw [hserver, Found.record, hserver, Option.getD_some]
  · rw [htype, Found.record, htype, Option.getD_some]

theorem Reads.confirms (h : Reads c ourMac p o) (hanswer : { c with options := o }.answer = .ack) :
    Confirms c.dhcp.transactionId ourMac c.dhcp.leasedIp c.dhcp.serverIp p := by
  obtain ⟨hmask, htype, _, hserver, hip⟩ := answer_ack hanswer
  obtain ⟨hyour, f, hf, hfrom, hkind⟩ := h.readAs hmask
  obtain ⟨hid, hmac⟩ := verifyDhcpHeader_true hf.verified
  have hack : o.messageType = dhcpMessageTypeAck := htype
  have hours : o.serverIp = c.dhcp.serverIp := hserver
  rw [hack] at hkind
  rw [hours] at hfrom
  exact ⟨hid, hmac, hyour.symm.trans hip, f, hf.items, hkind, hfrom⟩

/-- An offer that is accepted. -/
theorem Reads.offer (h : Reads c ourMac p o) (hoffers : { c with options := o }.offers) : Offers p o.serverIp := by
  obtain ⟨hmask, htype⟩ := hoffers
  obtain ⟨_, f, hf, hfrom, hkind⟩ := h.readAs hmask
  have hoffer : o.messageType = dhcpMessageTypeOffer := htype
  rw [hoffer] at hkind
  exact ⟨f, hf.items, hkind, hfrom⟩

theorem Leased.withOptions (h : Leased c ourMac acks offers) (o : DhcpOptions) :
    Leased { c with options := o } ourMac acks offers := ⟨h.offered, h.address, h.netmask, h.confirmed⟩

/-- A client without a lease claims nothing. -/
theorem leased_of_discover (hstate : c.dhcp.state = .discover) : Leased c ourMac acks offers := by
  have hdone : ¬ dhcpIsDone c.dhcp = true := by simp [dhcpIsDone, hstate]
  have hnot : ¬ HasOffer c := by
    rw [HasOffer, not_or]
    exact ⟨by simp [hstate], hdone⟩
  exact ⟨fun hoffer => absurd hoffer hnot, fun hd => absurd hd hdone, fun hd => absurd hd hdone,
    fun hd => absurd hd hdone⟩

/-- The client goes on with its lease in another state. -/
theorem Leased.moved (h : Leased c ourMac acks offers) (hdone : dhcpIsDone c.dhcp = true) (state : DhcpState) :
    Leased (c.setState state) ourMac acks offers where
  offered _ := h.offered (.inr hdone)
  address _ := h.address hdone
  netmask _ := h.netmask hdone
  confirmed _ := h.confirmed hdone

theorem discover_leased (h : Leased c ourMac acks offers) :
    LeasedAfter ourMac head acks offers (c.discover ourMac head) := by
  unfold Client.discover
  rcases tryReadOffer_cases c ourMac head with ⟨o, hresult⟩ | ⟨p, o, rfl, hreads, hoffers, hresult⟩
  · rw [hresult]
    exact h.withOptions o
  · rw [hresult, if_pos rfl]
    refine ⟨fun _ => ⟨p, rfl, hreads.offer hoffers⟩, ?_, ?_, ?_⟩
    · simp [dhcpIsDone, Client.setState]
    · simp [dhcpIsDone, Client.setState]
    · simp [dhcpIsDone, Client.setState]

theorem requesting_leased (h : Leased c ourMac acks offers) (hstate : c.dhcp.state = .requesting) :
    LeasedAfter ourMac head acks offers (c.requesting ourMac now head) := by
  unfold Client.requesting
  rcases tryReadAck_cases c ourMac now head with
    ⟨o, outcome, hack, hoffer, hresult⟩ | ⟨p, o, rfl, hreads, hanswer, hresult⟩
  · rw [hresult, if_neg hack]
    split
    · next hnack =>
      cases hnack
      exact leased_of_discover rfl
    · simp only [LeasedAfter, takenFor_ne hack, takenFor_ne hoffer]
      exact h.withOptions o
  · rw [hresult, if_pos rfl]
    exact ⟨fun _ => h.offered (.inl hstate), fun _ => rfl, fun _ => rfl,
      fun _ => ⟨p, rfl, hreads.confirms hanswer⟩⟩

theorem renew_leased (h : Leased c ourMac acks offers) (hdone : dhcpIsDone c.dhcp = true) :
    LeasedAfter ourMac head acks offers (c.renew ourMac now head) := by
  unfold Client.renew
  rcases tryReadAck_cases c ourMac now head with
    ⟨o, outcome, hack, hoffer, hresult⟩ | ⟨p, o, rfl, hreads, hanswer, hresult⟩
  · rw [hresult, if_neg hack]
    split
    · next hnack =>
      cases hnack
      exact leased_of_discover rfl
    · simp only [LeasedAfter, takenFor_ne hack, takenFor_ne hoffer]
      exact h.withOptions o
  · rw [hresult, if_pos rfl]
    exact ⟨fun _ => h.offered (.inr hdone), fun _ => h.address hdone, fun _ => h.netmask hdone,
      fun _ => ⟨p, rfl, hreads.confirms hanswer⟩⟩

/-- One call of `dhcp_task`. -/
theorem task_leased (h : Leased c ourMac acks offers) :
    LeasedAfter ourMac head acks offers (c.task ourMac now head) := by
  unfold Client.task
  cases hstate : c.dhcp.state with
  | disabled => exact h
  | discover => exact discover_leased h
  | requesting => exact requesting_leased h hstate
  | bound =>
    have hdone : dhcpIsDone c.dhcp = true := by simp [dhcpIsDone, hstate]
    simp only [LeasedAfter]
    split
    · exact h.moved hdone .renewing
    · exact h
  | renewing =>
    have hdone : dhcpIsDone c.dhcp = true := by simp [dhcpIsDone, hstate]
    simp only [Client.renewing]
    split
    · exact renew_leased (h.moved hdone .rebinding) rfl
    · exact renew_leased h hdone
  | rebinding =>
    simp only [LeasedAfter]
    split
    · exact leased_of_discover rfl
    · exact h
  | error => exact h

variable {s t : Stack}

/-- A step that does not touch the backoff of the client either. -/
structure Elsewhere (s t : Stack) : Prop extends SameClient s t where
  backoff : t.dhcp.backoff = s.dhcp.backoff

theorem Elsewhere.ofDhcpSend {type : DhcpPacketType} (h : DhcpSendFrame type s t) : Elsewhere s t := by
  have hunsent := h.unsent
  simp only [unsent, Prod.mk.injEq] at hunsent
  exact ⟨.ofDhcpSend h, congrArg (·.backoff) hunsent.2.2.2.2.1⟩

theorem SameClient.ofClient (h : ClientFrame False s t) : SameClient s t := by
  obtain ⟨new, htrace, hnew, _⟩ := h.trace
  constructor
  · simp [Invariant.client, h.dhcp, h.options, h.ourIp, h.ourNetmask]
  · exact h.ourMac
  · rw [htrace]
    apply acceptedPackets_append
    intro event he
    have hevent := hnew event he
    cases event <;> first | rfl | exact hevent.elim
  · rw [htrace]
    apply acceptedPackets_append
    intro event he
    have hevent := hnew event he
    cases event <;> first | rfl | exact hevent.elim

/-- A call that the host is configured with. -/
def Op.Configures : Op → Prop
  | .setOurMac _ | .setOurIp _ | .setOurNetmask _ => True
  | _ => False

/-- A call of the DHCP client that changes its state. -/
def Op.RunsDhcp : Op → Prop
  | .dhcpStart | .dhcpTask => True
  | _ => False

theorem udpListen_elsewhere (port : Port) (maxPacketCount : Int) :
    wp (udpListen port maxPacketCount) (fun _ t => Elsewhere s t) (fun _ _ => True) s := by
  unfold udpListen
  simp only [wp_bind, wp_get]
  split
  · trivial
  · exact ⟨⟨rfl, rfl, rfl, rfl⟩, rfl⟩

/-- The other operations touch neither the client nor the configuration. -/
theorem exec_elsewhere {op : Op} (hconfigures : ¬ Op.Configures op) (hruns : ¬ Op.RunsDhcp op) :
    wp op.exec (fun _ t => Elsewhere s t) (fun _ _ => True) s := by
  have hspares : ∀ {α : Type} {x : Net α}, Spares False x →
      wp x (fun _ t => Elsewhere s t) (fun _ _ => True) s :=
    fun hx => wp_partial (hx s) fun _ _ ht => ⟨.ofClient ht, congrArg (·.backoff) ht.dhcp⟩
  cases op with
  | receiveDone slot status bytes => exact hspares (gmacReceiveDone_spares slot status bytes)
  | transmitDone slot => exact ⟨⟨rfl, rfl, rfl, rfl⟩, rfl⟩
  | transmitStatus tsr => exact ⟨⟨rfl, rfl, rfl, rfl⟩, rfl⟩
  | tick now => exact ⟨⟨rfl, rfl, rfl, rfl⟩, rfl⟩
  | receive => exact hspares (.bind receivePacket_spares fun _ => .pure _)
  | arpTask => exact hspares arpTask_spares
  | sendToIp bytes ip => exact hspares (sendToIp_spares bytes ip)
  | udpListen port maxPacketCount => exact udpListen_elsewhere port maxPacketCount
  | udpSend data size sourcePort destPort ip =>
    exact hspares (udpSend_spares data size sourcePort destPort ip)
  | udpReceive size port => exact hspares (.bind (udpReceive_spares size port) fun _ => .pure _)
  | dhcpStart => exact absurd trivial hruns
  | dhcpTask => exact absurd trivial hruns
  | dhcpRelease => exact wp_partial (dhcpSendPacket_frame .release s) fun _ _ ht => .ofDhcpSend ht
  | downloadFile filename serverIp =>
    simp only [Op.exec, downloadFile, tftpDownloadFile, wp_bind, wp_get, wp_pure, wp_modify]
    exact wp_next (udpListen_elsewhere _ _) fun _ _ ht => ⟨⟨ht.client, ht.ourMac, ht.ack, ht.offer⟩, ht.backoff⟩
  | readFile size =>
    simp only [Op.exec, readFile, wp_bind, wp_get, wp_modify]
    apply wp_next (hspares (tftpRead_spares _ size))
    intro _ t ht
    exact ⟨⟨ht.client, ht.ourMac, ht.ack, ht.offer⟩, ht.backoff⟩
  | abortDownload errorMessage =>
    simp only [Op.exec, wp_bind, wp_get]
    exact hspares (sendTftpPacket_spares _ _ _)
  | setOurMac mac => exact absurd trivial hconfigures
  | setOurIp ip => exact absurd trivial hconfigures
  | setOurNetmask netmask => exact absurd trivial hconfigures

/-- Nobody but the DHCP client sets the address and the netmask (no `set_our_ip`, no `set_our_netmask`), and the MAC is
not changed under a lease (no `set_our_mac` where `dhcp_is_done` holds). -/
def LeaseRun (s : Stack) : Op → Prop
  | .setOurIp _ | .setOurNetmask _ => False
  | .setOurMac _ => dhcpIsDone s.dhcp = false
  | _ => True

/-- The invariant of a state. -/
def LeasedState (s : Stack) : Prop :=
  Leased (client s) s.ourMac (acceptedPackets isAck s.trace) (acceptedPackets isOffer s.trace)

theorem SameClient.leased (h : SameClient s t) (hs : LeasedState s) : LeasedState t := by
  unfold LeasedState at hs ⊢
  rw [h.client, h.ourMac, h.ack, h.offer]
  exact hs

theorem dhcpStart_leased :
    wp dhcpStart (fun _ t => LeasedState t) (fun _ _ => True) s := by
  unfold dhcpStart setDhcpState
  simp only [wp_bind, wp_modifyDhcp, wp_emit, wp_random, wp_getTime]
  apply wp_next (udpListen_elsewhere _ _)
  intro _ t ht
  apply ht.leased
  exact leased_of_discover rfl

/-- Every operation of a run in which only the client configures the host. -/
theorem exec_leased {op : Op} (hintact : Intact False (fun _ _ _ _ => True) s) (h : LeasedState s)
    (hop : LeaseRun s op) : wp op.exec (fun _ t => LeasedState t) (fun _ _ => True) s := by
  by_cases hruns : Op.RunsDhcp op
  · cases op with
    | dhcpStart => exact dhcpStart_leased
    | dhcpTask =>
      obtain ⟨limit, lost, hs⟩ := hintact
      apply wp_next (dhcpTask_refines hs)
      intro _ t ht
      have hafter : LeasedAfter s.ourMac (headDatagram s dhcpClientPort) _ _
        ((client s).task s.ourMac s.time (headDatagram s dhcpClientPort)) := task_leased h
      unfold LeasedState
      rw [ht.client, ht.accepted.ack, ht.accepted.offer, ht.host.ourMac]
      exact hafter
    | _ => exact hruns.elim
  · by_cases hconfigures : Op.Configures op
    · cases op with
      | setOurMac mac =>
        have hdone : ¬ dhcpIsDone s.dhcp = true := by rw [hop]; simp
        exact ⟨h.offered, h.address, h.netmask, fun hd => absurd hd hdone⟩
      | setOurIp ip => exact hop.elim
      | setOurNetmask netmask => exact hop.elim
      | _ => exact hconfigures.elim
    · exact wp_next (exec_elsewhere hconfigures hruns) fun _ _ ht => ht.leased h

/-- The configuration of the host is that of a lease, in every state of such a run. -/
theorem reaches_leased {application : Application} {time : Time} {entropy : Nat → UInt32}
    (h : Reaches Op.exec LeaseRun (booted application time entropy) s) : LeasedState s := by
  apply h.invariant
  · have hfresh : (booted application time entropy).dhcp.state = .disabled := by
      rw [booted_fresh.dhcp]
    have hdone : ¬ dhcpIsDone (client (booted application time entropy)).dhcp = true := by
      simp [dhcpIsDone, client, hfresh]
    have hnot : ¬ HasOffer (client (booted application time entropy)) := by
      rw [HasOffer, not_or]
      exact ⟨by simp [client, hfresh], hdone⟩
    exact ⟨fun hoffer => absurd hoffer hnot, fun hd => absurd hd hdone, fun hd => absurd hd hdone,
      fun hd => absurd hd hdone⟩
  · intro s op hreach hs hop
    exact exec_leased (reaches_intact False hreach fun w => w.elim) hs hop

/-- A call of `dhcp_task` that returns, as a step of the client. -/
theorem dhcpTask_client {application : Application} {time : Time} {entropy : ℕ → UInt32}
    (h : Reaches Op.exec (fun _ _ => True) (booted application time entropy) s) :
    wp dhcpTask (fun _ t => client t = ((client s).task s.ourMac s.time (headDatagram s dhcpClientPort)).1)
      (fun _ _ => True) s := by
  obtain ⟨limit, held, hs⟩ := reaches_intact False h fun hfalse => hfalse.elim
  exact wp_next (dhcpTask_refines hs) fun _ _ ht => ht.client

/-- Check an operation of a run: nobody configures the host. -/
def leaseGuard (_ : Stack) : Op → Bool
  | .setOurIp _ | .setOurNetmask _ | .setOurMac _ => false
  | _ => true

theorem leaseRun_of_guard {op : Op} (h : leaseGuard s op = true) : LeaseRun s op := by
  cases op <;> first | exact trivial | cases h

end MiniIp.Invariant
