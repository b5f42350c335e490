import MiniIp.Invariant.DhcpServer
import MiniIp.Invariant.Replies
import MiniIp.Invariant.Steady

/-!
# The extension of a lease

In `DHCP_RENEWING` the client reads the answer in every call of `dhcp_task`, also in the one in which the rebinding
threshold is crossed, and an ACK extends the lease. In `DHCP_REBINDING` (dhcp.c:475-481) it reads nothing: an ACK that
comes there does not extend the lease, though it is still running.
-/

set_option autoImplicit false

namespace MiniIp.Guarantees.LeaseExtension

open MiniIp.Source MiniIp.Invariant MiniIp.Library.Runs MiniIp.Library.TagLength MiniIp.Library.Wp

/-- An ACK of the selected server for the lease of the client. It grants `leaseTime` seconds. -/
structure ValidAck (s : Stack) (p : NetworkPacket) (leaseTime : Time) : Prop where
  verified : verifyDhcpHeader s.dhcp.transactionId s.ourMac p.data p.index = true
  options : ∃ items, Area optionFormat (optionArea p) items ∧ found items =
    ⟨some s.dhcp.serverIp, some s.dhcp.netmask, some dhcpMessageTypeAck, some leaseTime⟩
  yourIp : readBe32 p.data (p.index + 16) = s.dhcp.leasedIp

/-- The options do not begin with a pad, or it makes no difference that it is taken for a type. -/
def NoPadInFront (s : Stack) (p : NetworkPacket) (leaseTime : Time) : Prop :=
  (∀ rest, optionArea p ≠ optionFormat.pad :: rest) ∨
    ∃ granted, AckFor (client s) s.ourMac p granted ∧ granted * 1000 = leaseTime * 1000

variable {application : Application} {time : Time} {entropy : ℕ → UInt32} {s : Stack} {p : NetworkPacket}
  {leaseTime : Time} {c : Client} {ourMac : Mac} {now : Time}

/-- The step extends the lease where the client is renewing it and reads an ACK. -/
theorem task_extended_iff (hstate : c.dhcp.state = .renewing ∨ c.dhcp.state = .rebinding) :
    Extended now leaseTime c (c.task ourMac now (some p)).1 ↔
      c.dhcp.state = .renewing ∧ ∃ granted, AckFor c ourMac p granted ∧ granted * 1000 = leaseTime * 1000 := by
  constructor
  · intro hextended
    rcases hstate with hrenewing | hrebinding
    · refine ⟨hrenewing, ?_⟩
      have hawaits : Awaits c := .inr hrenewing
      by_cases hack : ((timed c now).tryReadAck ourMac now (some p)).2 = .ack
      · obtain ⟨q, granted, hq, hgranted, _⟩ := tryReadAck_ack_iff.mp hack
        obtain rfl : p = q := Option.some.inj hq
        have hackFor := (ackFor_timed granted).mp hgranted
        have hrenewed : Extended now granted c (c.task ourMac now (some p)).1 := task_renewed hrenewing hackFor
        exact ⟨granted, hackFor, hrenewed.leaseTime.symm.trans hextended.leaseTime⟩
      · exfalso
        by_cases hnack : ((timed c now).tryReadAck ourMac now (some p)).2 = .nack
        · have hdiscover := task_nack hawaits hnack
          rw [hextended.state] at hdiscover
          cases hdiscover
        · have hkept := congrArg Config.state (task_nothing hawaits hack hnack)
          have htimed := timed_state hawaits now
          have hbound : (timed c now).dhcp.state = .bound := hkept.symm.trans hextended.state
          rw [hbound] at htimed
          simp at htimed
    · have hbound := hextended.state
      simp only [Client.task, hrebinding] at hbound
      split at hbound
      · cases hbound
      · rw [hrebinding] at hbound
        cases hbound
  · rintro ⟨hrenewing, granted, hack, hsame⟩
    have hrenewed : Extended now granted c (c.task ourMac now (some p)).1 := task_renewed hrenewing hack
    exact { hrenewed with leaseTime := hrenewed.leaseTime.trans hsame }

/-- Without a pad in front, a valid ACK is read as one. -/
theorem ValidAck.ackFor (h : ValidAck s p leaseTime) (hpad : ∀ rest, optionArea p ≠ optionFormat.pad :: rest) :
    AckFor (client s) s.ourMac p leaseTime := by
  obtain ⟨items, hitems, hfound⟩ := h.options
  have hnone : ¬ PadInFront p := fun ⟨rest, harea⟩ => hpad rest harea
  have hread : OptionsRead p (found items) := (optionsRead_iff hnone).mpr ⟨items, hitems, rfl⟩
  refine ⟨found items, ⟨h.verified, hread⟩, ?_, ?_, ?_, ?_, h.yourIp⟩
  · rw [hfound]
    rfl
  · rw [hfound]
  · rw [hfound]
  · rw [hfound]
    rfl

/-- A valid ACK extends a lease that is being renewed, and no lease in `DHCP_REBINDING`. The call stops only where a
datagram cannot be sent. -/
theorem extended_iff (h : Reaches Op.exec (fun _ _ => True) (booted application time entropy) s)
    (hstate : s.dhcp.state = .renewing ∨ s.dhcp.state = .rebinding)
    (hhead : headDatagram s dhcpClientPort = some p) (hack : ValidAck s p leaseTime) :
    wp dhcpTask
      (fun _ t => Extended s.time leaseTime (client s) (client t) ↔
        s.dhcp.state = .renewing ∧ NoPadInFront s p leaseTime)
      (fun _ _ => CannotSend s) s := by
  have hleased : (client s).dhcp.state = .renewing ∨ (client s).dhcp.state = .rebinding := hstate
  apply dhcpTask_stopping h
  apply wp_next (dhcpTask_client h)
  intro _ t ht
  rw [hhead] at ht
  rw [ht, task_extended_iff hleased]
  constructor
  · rintro ⟨hrenewing, hgranted⟩
    exact ⟨hrenewing, .inr hgranted⟩
  · rintro ⟨hrenewing, hpad | hgranted⟩
    · exact ⟨hrenewing, leaseTime, hack.ackFor hpad, rfl⟩
    · exact ⟨hrenewing, hgranted⟩

/-- The ACK of the server at 10.0.0.2. -/
def ackOptions : List UInt8 := replyOptions dhcpMessageTypeAck ++ subnetMaskOption 0xFFFFFF00

theorem ackOptions_area : Area optionFormat (ackOptions ++ [dhcpOptionEnd])
    [(dhcpOptionMessageType, [5]), (dhcpOptionServerIdentifier, be32Bytes 0x0A000002),
      (dhcpOptionLeaseTime, be32Bytes 100), (dhcpOptionSubnetMask, be32Bytes 0xFFFFFF00)] :=
  area_reply dhcpMessageTypeAck (.stop [])

/-- The client gets a lease, time passes, and the server's ACK arrives. -/
def receivesAck (meanwhile : List Op) : List Op :=
  getsLease ++ meanwhile ++
    [.deliverUdp 2 dhcpServerPort dhcpClientPort (serverReply dhcpMessageTypeAck), .receive]

/-- The ACK waits for a client that is in this state and has a lease of 10.0.0.1, and the client can send. -/
def ackWaits (state : DhcpState) : Stack → Bool :=
  waitsFor fun s p => (s.dhcp.state = state ∧ getElapsed s.dhcp.time s.time < s.dhcp.leaseTime) ∧
    (s.freeNetworkPackets ≠ [] ∧ transmitErrors s.gmac.tsr = false) ∧
    (optionArea p = ackOptions ++ [dhcpOptionEnd] ∧ s.dhcp.serverIp = 0x0A000002 ∧ s.dhcp.netmask = 0xFFFFFF00 ∧
      readBe32 p.data (p.index + 16) = s.dhcp.leasedIp)

theorem validAck_waits {meanwhile : List Op} {state : DhcpState}
    (hrun : runs Op.exec (fun _ _ => true) (ackWaits state) (receivesAck meanwhile)
      (booted zeroApplication 0 fun _ => 0) = true) :
    ∃ s p, Reaches Op.exec (fun _ _ => True) (booted zeroApplication 0 fun _ => 0) s ∧ s.dhcp.state = state ∧
      getElapsed s.dhcp.time s.time < s.dhcp.leaseTime ∧
      (s.freeNetworkPackets ≠ [] ∧ transmitErrors s.gmac.tsr = false) ∧
      headDatagram s dhcpClientPort = some p ∧ ValidAck s p 100 ∧ ∀ rest, optionArea p ≠ optionFormat.pad :: rest := by
  obtain ⟨s, p, hreach, hhead, _, hverified, hcheck⟩ := waiting_of_runs hrun
  obtain ⟨⟨hstate, hlive⟩, hsends, harea, hserver, hnetmask, hyour⟩ := of_decide_eq_true hcheck
  have hoptions : Area optionFormat (optionArea p) _ := harea ▸ ackOptions_area
  refine ⟨s, p, hreach, hstate, hlive, hsends, hhead, ⟨hverified, ⟨_, hoptions, ?_⟩, hyour⟩, ?_⟩
  · rw [hserver, hnetmask]
    decide
  · intro rest hpad
    rw [harea] at hpad
    exact absurd (List.cons.inj hpad).1 (by decide)

/-- The ACK extends a lease that is being renewed. -/
theorem extended_renewing :
    ∃ s p, Reaches Op.exec (fun _ _ => True) (booted zeroApplication 0 fun _ => 0) s ∧ s.dhcp.state = .renewing ∧
      headDatagram s dhcpClientPort = some p ∧ ValidAck s p 100 ∧
      wp dhcpTask (fun _ t => Extended s.time 100 (client s) (client t)) (fun _ _ => False) s := by
  have hrun : runs Op.exec (fun _ _ => true) (ackWaits .renewing) (receivesAck [.tick 60000, .dhcpTask])
      (booted zeroApplication 0 fun _ => 0) = true := by
    decide +kernel
  obtain ⟨s, p, hreach, hstate, _, ⟨hpool, hclear⟩, hhead, hack, hpad⟩ := validAck_waits hrun
  obtain ⟨limit, held, hs⟩ := reaches_intact False hreach fun hfalse => hfalse.elim
  refine ⟨s, p, hreach, hstate, hhead, hack, ?_⟩
  apply wp_mono (wp_and (extended_iff hreach (.inl hstate) hhead hack) (dhcpTask_returns hs hpool hclear))
  · intro _ t hiff
    exact hiff.1.mpr ⟨hstate, .inl hpad⟩
  · exact fun _ _ hstop => hstop.2

/-- The lease has 20 seconds left, the server has extended it, and the client does not listen. -/
theorem not_extended_rebinding :
    ∃ s p, Reaches Op.exec (fun _ _ => True) (booted zeroApplication 0 fun _ => 0) s ∧ s.dhcp.state = .rebinding ∧
      getElapsed s.dhcp.time s.time < s.dhcp.leaseTime ∧ headDatagram s dhcpClientPort = some p ∧ ValidAck s p 100 ∧
      wp dhcpTask (fun _ t => t.dhcp.state = .rebinding ∧ headDatagram t dhcpClientPort = some p)
        (fun _ _ => False) s := by
  have hrun : runs Op.exec (fun _ _ => true) (ackWaits .rebinding)
      (receivesAck [.tick 60000, .dhcpTask, .tick 80000, .dhcpTask]) (booted zeroApplication 0 fun _ => 0) = true := by
    decide +kernel
  obtain ⟨s, p, hreach, hstate, hlive, _, hhead, hack, _⟩ := validAck_waits hrun
  refine ⟨s, p, hreach, hstate, hlive, hhead, hack, ?_⟩
  have hleft : ¬ s.dhcp.leaseTime ≤ getElapsed s.dhcp.time s.time := UInt32.not_le.mpr hlive
  simp only [dhcpTask, dhcpRebindingTask, hstate, ge_iff_le, hleft, if_false, wp_bind, wp_get, wp_getTime, wp_pure]
  exact ⟨trivial, hhead⟩

end MiniIp.Guarantees.LeaseExtension
