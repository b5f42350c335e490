import MiniIp.Invariant.DhcpServer
import MiniIp.Invariant.Replies
import MiniIp.Invariant.Steady

/-!
# Refusals of a server

`try_read_ack` (dhcp.c:360-389) demands a lease time before it looks at the message type. A NAK has
none, so the code never takes it for one. A NAK that brings a lease time is taken from any server:
the server identifier is compared for an ACK only.

What a datagram says is what its options say by their grammar. `dhcp_read` takes a pad in front of them for an option
(dhcp.c:268), and may find another server behind it than they name.
-/

set_option autoImplicit false

namespace MiniIp.Guarantees.ServerAnswers

open MiniIp.Source MiniIp.Invariant MiniIp.Library.Runs MiniIp.Library.TagLength MiniIp.Library.Wp

/-- A DHCPNAK of the selected server to this client. It must not have a lease time. -/
structure WellFormedNak (s : Stack) (p : NetworkPacket) : Prop where
  verified : verifyDhcpHeader s.dhcp.transactionId s.ourMac p.data p.index = true
  options : ∃ items, Area optionFormat (optionArea p) items ∧
    (found items).messageType = some dhcpMessageTypeNack ∧ (found items).serverIp = some s.dhcp.serverIp ∧
    (found items).leaseTime = none

/-- The options begin with a pad. Taken for an option of the length in the next byte, it is followed by a message
type NAK, a server identifier and a lease time. -/
def LeaseBehindPad (s : Stack) (p : NetworkPacket) : Prop :=
  (∃ rest, optionArea p = optionFormat.pad :: rest) ∧ ∃ serverIp, NackFor (client s) s.ourMac p serverIp

/-- What `dhcp_task` makes of the configuration if there is no answer: only the timer runs. -/
def unanswered (s : Stack) : Config := config (timed (client s) s.time)

/-- The packet is for this client, and its options name the selected server. -/
structure FromServer (s : Stack) (p : NetworkPacket) : Prop where
  transactionId : readBe32 p.data (p.index + 4) = s.dhcp.transactionId
  clientMac : readMac p.data (p.index + 28) = s.ourMac
  server : ∃ f, OptionsSay p f ∧ f.serverIp = some s.dhcp.serverIp

variable {application : Application} {time : Time} {entropy : ℕ → UInt32} {s t : Stack} {p : NetworkPacket}

/-- A NAK without a lease time is read as a NACK only where a pad in front hides one. -/
theorem WellFormedNak.nackFor_iff (h : WellFormedNak s p) :
    (∃ serverIp, NackFor (client s) s.ourMac p serverIp) ↔ LeaseBehindPad s p := by
  constructor
  · intro hnack
    refine ⟨?_, hnack⟩
    by_contra hpad
    obtain ⟨items, hitems, _, _, hlease⟩ := h.options
    obtain ⟨_, f, hf, _, hsome, _⟩ := hnack
    have hsay : OptionsSay p f := (optionsRead_iff hpad).mp hf.items
    rw [hsay.unique ⟨items, hitems, rfl⟩, hlease] at hsome
    cases hsome
  · exact fun hbehind => hbehind.2

/-- A well-formed NAK sends the client back to `DHCP_DISCOVER` only where its options begin with a pad that hides a
lease time. The call stops only where a datagram cannot be sent. -/
theorem nak_honoured_iff (h : Reaches Op.exec (fun _ _ => True) (booted application time entropy) s)
    (hstate : s.dhcp.state = .requesting ∨ s.dhcp.state = .renewing) (hhead : headDatagram s dhcpClientPort = some p)
    (hnak : WellFormedNak s p) :
    wp dhcpTask (fun _ t => t.dhcp.state = .discover ↔ LeaseBehindPad s p)
      (fun _ _ => CannotSend s) s := by
  apply dhcpTask_stopping h
  apply wp_next (dhcpTask_client h)
  intro _ t ht
  have hawaits : Awaits (client s) := hstate
  rw [hhead] at ht
  have hdiscover := task_discover_iff hawaits s.ourMac s.time p
  rw [← ht, hnak.nackFor_iff] at hdiscover
  exact hdiscover

/-- The options of a NAK of the server at 10.0.0.2. -/
def nakOptions : List UInt8 :=
  messageTypeOption dhcpMessageTypeNack ++ serverIdentifierOption 0x0A000002

theorem nakOptions_area : Area optionFormat (nakOptions ++ [dhcpOptionEnd])
    [(dhcpOptionMessageType, [6]), (dhcpOptionServerIdentifier, be32Bytes 0x0A000002)] :=
  area_messageType _ (area_serverIdentifier _ (.stop []))

/-- A NAK as servers send it waits for a client that has made a request. -/
theorem nak_waits : ∃ s p, Reaches Op.exec (fun _ _ => True) (booted zeroApplication 0 fun _ => 0) s ∧
    s.dhcp.state = .requesting ∧ headDatagram s dhcpClientPort = some p ∧ WellFormedNak s p ∧
    optionArea p = nakOptions ++ [dhcpOptionEnd] ∧
    returnsWith (fun t => t.dhcp.state = .requesting) dhcpTask s = true := by
  have hrun : runs Op.exec (fun _ _ => true)
      (waitsFor fun s p => (s.dhcp.state = .requesting ∧ optionArea p = nakOptions ++ [dhcpOptionEnd] ∧
        s.dhcp.serverIp = 0x0A000002) ∧ returnsWith (fun t => t.dhcp.state = .requesting) dhcpTask s = true)
      (receivesAnswer nakOptions) (booted zeroApplication 0 fun _ => 0) = true := by
    decide +kernel
  obtain ⟨s, p, hreach, hhead, _, hverified, hcheck⟩ := waiting_of_runs hrun
  obtain ⟨⟨hstate, harea, hserver⟩, hreturns⟩ := of_decide_eq_true hcheck
  refine ⟨s, p, hreach, hstate, hhead, ⟨hverified, _, harea ▸ nakOptions_area, by decide, ?_, by decide⟩, harea,
    hreturns⟩
  rw [hserver]
  decide

/-- The client goes on asking for the address it has been refused. -/
theorem nak_not_honoured :
    ∃ s p, Reaches Op.exec (fun _ _ => True) (booted zeroApplication 0 fun _ => 0) s ∧ s.dhcp.state = .requesting ∧
      headDatagram s dhcpClientPort = some p ∧ WellFormedNak s p ∧
      wp dhcpTask (fun _ t => t.dhcp.state = .requesting) (fun _ _ => False) s := by
  obtain ⟨s, p, hreach, hstate, hhead, hnak, _, hreturns⟩ := nak_waits
  refine ⟨s, p, hreach, hstate, hhead, hnak, ?_⟩
  exact wp_next (wp_of_returnsWith hreturns) fun _ _ ht => of_decide_eq_true ht

/-- No pad hides a lease time in this NAK. -/
theorem nak_honoured_requesting :
    ∃ s p, Reaches Op.exec (fun _ _ => True) (booted zeroApplication 0 fun _ => 0) s ∧ s.dhcp.state = .requesting ∧
      headDatagram s dhcpClientPort = some p ∧ WellFormedNak s p ∧
      wp dhcpTask (fun _ t => t.dhcp.state ≠ .discover) (fun _ _ => False) s := by
  obtain ⟨s, p, hreach, hstate, hhead, hnak, harea, hreturns⟩ := nak_waits
  refine ⟨s, p, hreach, hstate, hhead, hnak, ?_⟩
  apply wp_mono (wp_and (wp_of_returnsWith hreturns) (nak_honoured_iff hreach (.inl hstate) hhead hnak))
  · rintro _ t ⟨_, hiff⟩ hdiscover
    obtain ⟨⟨rest, hpad⟩, _⟩ := hiff.mp hdiscover
    rw [harea] at hpad
    exact absurd (List.cons.inj hpad).1 (by decide)
  · exact fun _ _ hstop => hstop.1

/-- A NACK of a server that the client has not selected. It has a lease time, and its options do not begin with a
pad. -/
structure ForeignNack (s : Stack) (p : NetworkPacket) : Prop where
  verified : verifyDhcpHeader s.dhcp.transactionId s.ourMac p.data p.index = true
  noPad : ¬ PadInFront p
  options : ∃ f serverIp, OptionsSay p f ∧ f.messageType = some dhcpMessageTypeNack ∧ f.leaseTime.isSome = true ∧
    f.serverIp = some serverIp ∧ serverIp ≠ s.dhcp.serverIp

/-- The options begin with a pad. Taken for an option of the length in the next byte, it is followed by an answer that
the client accepts, but the options do not name the selected server. -/
structure AnswerBehindPad (s : Stack) (p : NetworkPacket) : Prop where
  pad : PadInFront p
  answer : (∃ leaseTime, AckFor (client s) s.ourMac p leaseTime) ∨ ∃ serverIp, NackFor (client s) s.ourMac p serverIp
  unnamed : ∀ f, OptionsSay p f → f.serverIp ≠ some s.dhcp.serverIp

/-- An accepted answer is for this client. -/
theorem answer_verified (h : (∃ leaseTime, AckFor (client s) s.ourMac p leaseTime) ∨
    ∃ serverIp, NackFor (client s) s.ourMac p serverIp) :
    verifyDhcpHeader s.dhcp.transactionId s.ourMac p.data p.index = true := by
  rcases h with ⟨_, f, hf, _⟩ | ⟨_, f, hf, _⟩
  · exact hf.verified
  · exact hf.verified

/-- An answer that the client accepts names the selected server, with the two exceptions. -/
theorem answer_fromServer_iff :
    ((∃ leaseTime, AckFor (client s) s.ourMac p leaseTime) ∨ (∃ serverIp, NackFor (client s) s.ourMac p serverIp) →
      FromServer s p) ↔ ¬ ForeignNack s p ∧ ¬ AnswerBehindPad s p := by
  constructor
  · intro h
    constructor
    · rintro ⟨hverified, hpad, f, serverIp, hsay, htype, hlease, hserver, hforeign⟩
      have hread : OptionsRead p f := (optionsRead_iff hpad).mpr hsay
      obtain ⟨g, hg, hours⟩ := (h (.inr ⟨serverIp, f, ⟨hverified, hread⟩, hserver, hlease, htype⟩)).server
      rw [hg.unique hsay, hserver] at hours
      exact hforeign (Option.some.inj hours)
    · rintro ⟨_, hanswer, hunnamed⟩
      obtain ⟨f, hf, hserver⟩ := (h hanswer).server
      exact hunnamed f hf hserver
  · rintro ⟨hforeign, hbehind⟩ hanswer
    have hverified := answer_verified hanswer
    obtain ⟨hid, hmac⟩ := verifyDhcpHeader_true hverified
    refine ⟨hid, hmac, ?_⟩
    by_cases hpad : PadInFront p
    · by_contra hnone
      exact hbehind ⟨hpad, hanswer, fun f hf hserver => hnone ⟨f, hf, hserver⟩⟩
    · rcases hanswer with ⟨_, f, hf, hserver, _⟩ | ⟨serverIp, f, hf, hserver, hlease, htype⟩
      · exact ⟨f, (optionsRead_iff hpad).mp hf.items, hserver⟩
      · have hsay := (optionsRead_iff hpad).mp hf.items
        have hours : serverIp = s.dhcp.serverIp := by
          by_contra hother
          exact hforeign ⟨hverified, hpad, f, serverIp, hsay, htype, hlease, hserver, hother⟩
        exact ⟨f, hsay, hours ▸ hserver⟩

/-- What an answer changes, a packet of the selected server has changed, unless it is a NACK of another one or an answer
that only the code reads behind a pad. -/
theorem answers_from_server_iff (h : Reaches Op.exec (fun _ _ => True) (booted application time entropy) s)
    (hstate : s.dhcp.state = .requesting ∨ s.dhcp.state = .renewing) :
    wp dhcpTask
      (fun _ t => (headDatagram s dhcpClientPort = none → config (client t) = unanswered s) ∧
        ∀ p, headDatagram s dhcpClientPort = some p →
          ((config (client t) ≠ unanswered s → FromServer s p) ↔ ¬ ForeignNack s p ∧ ¬ AnswerBehindPad s p))
      (fun _ _ => CannotSend s) s := by
  have hawaits : Awaits (client s) := hstate
  apply dhcpTask_stopping h
  apply wp_next (dhcpTask_client h)
  intro _ t ht
  constructor
  · intro hnone
    rw [hnone] at ht
    rw [ht]
    apply task_nothing hawaits
    · rw [ne_eq, tryReadAck_ack_iff]
      rintro ⟨p, _, ⟨⟩, _⟩
    · rw [ne_eq, tryReadAck_nack_iff]
      rintro ⟨p, _, ⟨⟩, _⟩
  · intro p hhead
    rw [hhead] at ht
    rw [ht, unanswered, task_changes_iff hawaits]
    exact answer_fromServer_iff

/-- A NACK of the server at 10.0.0.3, with a lease time. -/
def foreignOptions : List UInt8 :=
  messageTypeOption dhcpMessageTypeNack ++ serverIdentifierOption 0x0A000003 ++ leaseTimeOption 100

/-- The selected server's ACK begins the lease. -/
theorem answers_from_server_ack :
    ∃ s p, s.dhcp.state = .requesting ∧ headDatagram s dhcpClientPort = some p ∧
      wp dhcpTask (fun _ t => t.dhcp.state = .bound ∧ FromServer s p) (fun _ _ => False) s := by
  have hrun : runs Op.exec (fun _ _ => true)
      (waitsFor fun s p => (s.dhcp.state = .requesting ∧
        optionArea p = replyOptions dhcpMessageTypeAck ++ subnetMaskOption 0xFFFFFF00 ++ [dhcpOptionEnd]) ∧
        returnsWith (fun t => t.dhcp.state = .bound) dhcpTask s = true)
      (receivesAnswer (replyOptions dhcpMessageTypeAck ++ subnetMaskOption 0xFFFFFF00))
      (booted zeroApplication 0 fun _ => 0) = true := by
    decide +kernel
  obtain ⟨s, p, hreach, hhead, _, _, hcheck⟩ := waiting_of_runs hrun
  obtain ⟨⟨hstate, harea⟩, hreturns⟩ := of_decide_eq_true hcheck
  have hsay : OptionsSay p _ := ⟨_, harea ▸ area_reply dhcpMessageTypeAck (.stop []), rfl⟩
  have hpad : ¬ PadInFront p := by
    rintro ⟨rest, hpad⟩
    rw [harea] at hpad
    exact absurd (List.cons.inj hpad).1 (by decide)
  have hforeign : ¬ ForeignNack s p := by
    rintro ⟨_, _, f, _, hf, htype, _⟩
    rw [hf.unique hsay] at htype
    exact absurd htype (by decide)
  refine ⟨s, p, hstate, hhead, ?_⟩
  apply wp_mono (wp_and (wp_of_returnsWith hreturns) (answers_from_server_iff hreach (.inl hstate)))
  · rintro _ t ⟨hbound, _, hanswer⟩
    have hnow : t.dhcp.state = .bound := of_decide_eq_true hbound
    refine ⟨hnow, (hanswer p hhead).mpr ⟨hforeign, fun hbehind => hpad hbehind.pad⟩ ?_⟩
    intro hsame
    have hkept : t.dhcp.state = (timed (client s) s.time).dhcp.state := congrArg Config.state hsame
    have htimed := timed_state (c := client s) (.inl hstate) s.time
    rw [← hkept, hnow] at htimed
    simp at htimed
  · exact fun _ _ hstop => hstop.1

/-- A server that has not been selected sends the client back to `DHCP_DISCOVER`. -/
theorem foreign_nack_taken :
    ∃ s p, Reaches Op.exec (fun _ _ => True) (booted zeroApplication 0 fun _ => 0) s ∧ s.dhcp.state = .requesting ∧
      headDatagram s dhcpClientPort = some p ∧ ¬ FromServer s p ∧
      wp dhcpTask (fun _ t => t.dhcp.state = .discover) (fun _ _ => False) s := by
  have hrun : runs Op.exec (fun _ _ => true)
      (waitsFor fun s p => (s.dhcp.state = .requesting ∧ s.dhcp.serverIp = 0x0A000002 ∧
        optionArea p = foreignOptions ++ [dhcpOptionEnd]) ∧
        returnsWith (fun t => t.dhcp.state = .discover) dhcpTask s = true)
      (receivesAnswer foreignOptions) (booted zeroApplication 0 fun _ => 0) = true := by
    decide +kernel
  obtain ⟨s, p, hreach, hhead, _, _, hcheck⟩ := waiting_of_runs hrun
  obtain ⟨⟨hstate, hserver, harea⟩, hreturns⟩ := of_decide_eq_true hcheck
  refine ⟨s, p, hreach, hstate, hhead, ?_, wp_next (wp_of_returnsWith hreturns) fun _ _ ht => of_decide_eq_true ht⟩
  intro hfrom
  have harea' : Area optionFormat (optionArea p) _ :=
    harea ▸ area_messageType _ (area_serverIdentifier _ (area_leaseTime _ (.stop [])))
  obtain ⟨f, hf, hours⟩ := hfrom.server
  rw [hf.unique ⟨_, harea', rfl⟩, hserver] at hours
  exact absurd hours (by decide)

end MiniIp.Guarantees.ServerAnswers
