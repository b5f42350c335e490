import MiniIp.Invariant.Acceptance
import MiniIp.Invariant.DhcpServer

/-!
# The host is configured as the server has said

In the states in which `dhcp_is_done` (dhcp.c:499-503) holds, the address and the
netmask of the host are those of the lease. The last ACK that was accepted is for
this client and this address, and it comes from the server of the last OFFER that
was accepted.

What a packet says is here what its options say by their grammar. `dhcp_read` takes a pad in front of them for an
option (dhcp.c:268), and what is behind the pad may then be another server's answer.
-/

set_option autoImplicit false

namespace MiniIp.Guarantees.ConfigurationAgreement

open MiniIp.Source MiniIp.Invariant MiniIp.Library.Runs MiniIp.Library.TagLength MiniIp.Library.Wp

/-- The options are a message of this type from this server. -/
def MessageOf (p : NetworkPacket) (type : UInt8) (serverIp : Ip) : Prop :=
  ∃ f, OptionsSay p f ∧ f.messageType = some type ∧ f.serverIp = some serverIp

/-- An ACK of this server for this client and this address. -/
structure AckOf (transactionId : UInt32) (ourMac : Mac) (ip serverIp : Ip) (p : NetworkPacket) : Prop where
  transactionId : readBe32 p.data (p.index + 4) = transactionId
  clientMac : readMac p.data (p.index + 28) = ourMac
  yourIp : readBe32 p.data (p.index + 16) = ip
  options : MessageOf p dhcpMessageTypeAck serverIp

/-- The host is configured as the last accepted ACK says, and that comes from the server of the last accepted OFFER. -/
structure Agrees (s : Stack) : Prop where
  address : s.ourIp = s.dhcp.leasedIp
  netmask : s.ourNetmask = s.dhcp.netmask
  acked : ∃ ack, (acceptedPackets isAck s.trace).head? = some ack ∧
    AckOf s.dhcp.transactionId s.ourMac s.ourIp s.dhcp.serverIp ack
  offered : ∃ offer, (acceptedPackets isOffer s.trace).head? = some offer ∧
    MessageOf offer dhcpMessageTypeOffer s.dhcp.serverIp

/-- If the options begin with a pad, taking it for an option whose length is the next byte leads to the same message
type and the same server. -/
def PadHarmless (p : NetworkPacket) : Prop :=
  PadInFront p → ∀ f, OptionsRead p f → ∃ g, OptionsSay p g ∧ g.messageType = f.messageType ∧ g.serverIp = f.serverIp

/-- Nobody but the client configures the host, and no pad misleads it about a datagram that suits. -/
structure AgreementRun (s : Stack) (op : Op) : Prop where
  lease : LeaseRun s op
  pads : ∀ p, Finds s op p → PadHarmless p

/-- The invariant: the lease, and packets in which no pad has misled the client. -/
structure AgreedState (s : Stack) : Prop where
  lease : LeasedState s
  acks : ∀ p ∈ acceptedPackets isAck s.trace, PadHarmless p
  offers : ∀ p ∈ acceptedPackets isOffer s.trace, PadHarmless p

variable {application : Application} {time : Time} {entropy : Nat → UInt32} {s : Stack} {op : Op} {p : NetworkPacket}
  {type : UInt8} {ip serverIp : Ip} {f : Found}

/-- What `dhcp_read` finds, the options say. -/
theorem PadHarmless.messageOf (h : PadHarmless p) (hread : OptionsRead p f) (htype : f.messageType = some type)
    (hserver : f.serverIp = some serverIp) : MessageOf p type serverIp := by
  by_cases hpad : PadInFront p
  · obtain ⟨g, hg, hsameType, hsameServer⟩ := h hpad f hread
    exact ⟨g, hg, hsameType.trans htype, hsameServer.trans hserver⟩
  · exact ⟨f, (optionsRead_iff hpad).mp hread, htype, hserver⟩

theorem PadHarmless.ackOf {transactionId : UInt32} {ourMac : Mac} (h : PadHarmless p)
    (hconfirms : Confirms transactionId ourMac ip serverIp p) : AckOf transactionId ourMac ip serverIp p := by
  obtain ⟨f, hread, htype, hserver⟩ := hconfirms.options
  exact ⟨hconfirms.transactionId, hconfirms.clientMac, hconfirms.yourIp, h.messageOf hread htype hserver⟩

/-- One operation. -/
theorem exec_agreed (hintact : Intact False (fun _ _ _ _ => True) s) (h : AgreedState s) (hop : AgreementRun s op) :
    wp op.exec (fun _ t => AgreedState t) (fun _ _ => True) s := by
  apply wp_partial (wp_and (exec_leased hintact h.lease hop.lease) (exec_accepts hintact))
  rintro _ t ⟨hlease, hacks, hoffers⟩
  constructor
  · exact hlease
  · intro p hp
    rcases hacks p hp with hold | hfinds
    · exact h.acks p hold
    · exact hop.pads p hfinds
  · intro p hp
    rcases hoffers p hp with hold | hfinds
    · exact h.offers p hold
    · exact hop.pads p hfinds

theorem reaches_agreed (h : Reaches Op.exec AgreementRun (booted application time entropy) s) : AgreedState s := by
  apply h.invariant
  · refine ⟨reaches_leased .start, ?_, ?_⟩
    · rw [booted_fresh.trace]
      simp [acceptedPackets]
    · rw [booted_fresh.trace]
      simp [acceptedPackets]
  · intro s op hreach hs hop
    exact exec_agreed (reaches_intact False hreach fun w => w.elim) hs hop

/-- Where no pad misleads the client, the host is configured as the server has said. -/
theorem configuration_agrees (h : Reaches Op.exec AgreementRun (booted application time entropy) s)
    (hdone : dhcpIsDone s.dhcp = true) : Agrees s := by
  have hs := reaches_agreed h
  have haddress : s.ourIp = s.dhcp.leasedIp := hs.lease.address hdone
  obtain ⟨ack, hack, hconfirms⟩ := hs.lease.confirmed hdone
  obtain ⟨offer, hoffer, g, hread, htype, hserver⟩ := hs.lease.offered (.inr hdone)
  refine ⟨haddress, hs.lease.netmask hdone, ⟨ack, hack, ?_⟩, offer, hoffer, ?_⟩
  · rw [haddress]
    exact (hs.acks ack (List.mem_of_head? hack)).ackOf hconfirms
  · exact (hs.offers offer (List.mem_of_head? hoffer)).messageOf hread htype hserver

/-- Check an operation of a run: nobody configures the host, and the options of no datagram begin with a pad. -/
def agreementGuard (s : Stack) (op : Op) : Bool :=
  leaseGuard s op && (headDatagram s dhcpClientPort).all fun p => (optionArea p).head? ≠ some optionFormat.pad

theorem agreementRun_of_guard (h : agreementGuard s op = true) : AgreementRun s op := by
  obtain ⟨hlease, hpads⟩ := Bool.and_eq_true_iff.mp h
  refine ⟨leaseRun_of_guard hlease, ?_⟩
  rintro p hfinds ⟨rest, hpad⟩
  rw [hfinds.head, Option.all_some, hpad] at hpads
  exact absurd rfl (of_decide_eq_true hpads)

theorem configuration_agrees_bound :
    ∃ s, Reaches Op.exec AgreementRun (booted zeroApplication 0 fun _ => 0) s ∧ s.dhcp.state = .bound ∧
      s.ourIp = 0x0A000001 ∧ Agrees s := by
  have hrun : runs Op.exec agreementGuard (fun s => s.dhcp.state = .bound ∧ s.ourIp = 0x0A000001) getsLease
      (booted zeroApplication 0 fun _ => 0) = true := by
    decide +kernel
  obtain ⟨s, hreach, hcheck⟩ := reaches_of_runs AgreementRun .start
    (fun _ _ _ hguard => agreementRun_of_guard hguard) hrun
  obtain ⟨hstate, hip⟩ := of_decide_eq_true hcheck
  exact ⟨s, hreach, hstate, hip, configuration_agrees hreach (by simp [dhcpIsDone, hstate])⟩

/-- Options of an ACK of the server at 10.0.0.3. They begin with a pad and a host name, and in the host name there are
those of an ACK of the server at 10.0.0.2. -/
def hidingOptions : List UInt8 :=
  [0, 12, 33] ++ List.replicate 11 1 ++ replyOptions dhcpMessageTypeAck ++ subnetMaskOption 0xFFFFFF00 ++
    [dhcpOptionEnd] ++ messageTypeOption dhcpMessageTypeAck ++ serverIdentifierOption 0x0A000003 ++ leaseTimeOption 100 ++
    subnetMaskOption 0xFFFFFF00

theorem hidingOptions_say (harea : optionArea p = hidingOptions ++ [dhcpOptionEnd]) :
    OptionsSay p ⟨some 0x0A000003, some 0xFFFFFF00, some dhcpMessageTypeAck, some 100⟩ := by
  have hanswer : Area optionFormat (messageTypeOption dhcpMessageTypeAck ++ _) _ :=
    area_messageType _ (area_serverIdentifier 0x0A000003 (area_leaseTime 100 (area_subnetMask 0xFFFFFF00 (.stop []))))
  -- the bytes that `dhcp_read` takes for options are the host name
  have hname : Area optionFormat (12 :: 33 :: ((List.replicate 11 1 ++ replyOptions dhcpMessageTypeAck ++
      subnetMaskOption 0xFFFFFF00 ++ [dhcpOptionEnd]) ++ _)) _ :=
    .item (by decide) (by decide) (by decide) (by simp [optionFormat]; decide) hanswer
  have hpadded : Area optionFormat (hidingOptions ++ [dhcpOptionEnd]) _ := .pad hname
  rw [← harea] at hpadded
  exact ⟨_, hpadded, by decide⟩

/-- The client binds the address with an ACK of a server whose offer it has not taken. -/
theorem bound_by_other_server :
    ∃ s, Reaches Op.exec LeaseRun (booted zeroApplication 0 fun _ => 0) s ∧ dhcpIsDone s.dhcp = true ∧ ¬ Agrees s := by
  have hrun : runs Op.exec leaseGuard
      (fun s => (s.dhcp.state = .bound ∧ s.dhcp.serverIp = 0x0A000002) ∧
        (acceptedPackets isAck s.trace).head?.any fun p => optionArea p = hidingOptions ++ [dhcpOptionEnd])
      (.dhcpStart :: answered 0 (serverReply dhcpMessageTypeOffer) ++ answered 1 (dhcpReply 0 0x0A000001 hidingOptions))
      (booted zeroApplication 0 fun _ => 0) = true := by
    decide +kernel
  obtain ⟨s, hreach, hcheck⟩ := reaches_of_runs LeaseRun .start (fun _ _ _ hguard => leaseRun_of_guard hguard) hrun
  obtain ⟨⟨hstate, hserver⟩, hhiding⟩ := of_decide_eq_true hcheck
  refine ⟨s, hreach, by simp [dhcpIsDone, hstate], ?_⟩
  intro hagrees
  obtain ⟨ack, hack, hackOf⟩ := hagrees.acked
  rw [hack, Option.any_some] at hhiding
  obtain ⟨f, hsay, _, hours⟩ := hackOf.options
  rw [hsay.unique (hidingOptions_say (of_decide_eq_true hhiding)), hserver] at hours
  exact absurd hours (by decide)

end MiniIp.Guarantees.ConfigurationAgreement
