import MiniIp.Invariant.Acceptance
import MiniIp.Invariant.ArpFrame
import MiniIp.Invariant.DhcpServer
import MiniIp.Library.Network

/-!
# No two clients use one address

Any number of hosts run the DHCP client. What they receive on the client's port may be lost, repeated or delayed, and
may come from anybody, but everything in it that `dhcp_read` takes for an ACK confirms an address to the MAC that it
is assigned to. If no address is assigned to two MACs, then two hosts with different MACs that hold a lease have
different addresses. No application sets the address or the netmask itself, and none changes the MAC under a lease.

`verify_dhcp_header` (dhcp.c:219-245) compares the client's MAC in a packet with that of the host, and `try_read_ack`
(dhcp.c:360-390) takes only an ACK for the address of the offer.
-/

set_option autoImplicit false

namespace MiniIp.Guarantees.DistinctLeases

open MiniIp.Source MiniIp.Invariant MiniIp.Library.Runs MiniIp.Library.Wp

variable {ι : Type} {assigned : Mac → Ip → Prop} {hosts : ι → Stack} {application : ι → Application} {time : ι → Time}
  {entropy : ι → Nat → UInt32} {s t : Stack} {p : NetworkPacket}

/-- `dhcp_read` takes the packet for an ACK, and it confirms the address to the host with this MAC. -/
structure AckTo (mac : Mac) (ip : Ip) (p : NetworkPacket) : Prop where
  clientMac : readMac p.data (p.index + 28) = mac
  yourIp : readBe32 p.data (p.index + 16) = ip
  type : ReadType p dhcpMessageTypeAck

/-- What `dhcp_read` takes for an ACK confirms what has been assigned. -/
def Honest (assigned : Mac → Ip → Prop) (p : NetworkPacket) : Prop := ∀ mac ip, AckTo mac ip p → assigned mac ip

/-- Every ACK that waits for the client is honest. -/
def onClientPort (assigned : Mac → Ip → Prop) : QueueContent := fun _ port _ p => port = dhcpClientPort → Honest assigned p

/-- What happens on the network: addresses come from the client only, and what a host receives brings no false ACK. -/
structure Leasing (assigned : Mac → Ip → Prop) (hosts : ι → Stack) (step : ι × Op) : Prop where
  lease : LeaseRun (hosts step.1) step.2
  honest : step.2 = .receive → Brings (onClientPort assigned) (hosts step.1)

/-- What waits for the client is honest, and so is every ACK that it has accepted. -/
structure Trusting (assigned : Mac → Ip → Prop) (s : Stack) : Prop where
  queue : Intact False (onClientPort assigned) s
  lease : LeasedState s
  acks : ∀ p ∈ acceptedPackets isAck s.trace, Honest assigned p

theorem head_honest (h : Intact False (onClientPort assigned) s) (hhead : headDatagram s dhcpClientPort = some p) :
    Honest assigned p := by
  obtain ⟨_, _, hs⟩ := h
  rw [headDatagram, Option.map_eq_some_iff] at hhead
  obtain ⟨⟨c, q⟩, hqueue, rfl⟩ := hhead
  obtain ⟨_, hport, hcons⟩ := queueHead_some hqueue
  have hmem : q ∈ (s.udp.connections c).packetQueue := by
    rw [hcons]
    exact List.mem_cons_self
  exact hs.udpContent c q hmem hport

theorem exec_trusting {op : Op} (h : Trusting assigned s) (hop : LeaseRun s op)
    (hbrings : op = .receive → Brings (onClientPort assigned) s) :
    wp op.exec (fun _ t => Trusting assigned t) (fun _ _ => True) s := by
  have hintact : Intact False (fun _ _ _ _ => True) s := by
    obtain ⟨limit, held, hs⟩ := h.queue
    exact ⟨limit, held, { hs with udpContent := fun _ _ _ => trivial }⟩
  have hqueue := exec_intact h.queue False.elim hbrings
  apply wp_partial (wp_and hqueue (wp_and (exec_leased hintact h.lease hop) (exec_accepts h.queue)))
  rintro _ t ⟨hqueue, hlease, hacks, _⟩
  refine ⟨hqueue, hlease, fun p hp => ?_⟩
  rcases hacks p hp with hold | hfinds
  · exact h.acks p hold
  · exact head_honest h.queue hfinds.head

theorem booted_trusting (application : Application) (time : Time) (entropy : Nat → UInt32) :
    Trusting assigned (booted application time entropy) := by
  refine ⟨⟨0, [], booted_sound⟩, reaches_leased .start, ?_⟩
  rw [booted_fresh.trace]
  simp [acceptedPackets]

/-- A host that holds a lease has the address that is assigned to it. -/
theorem Trusting.assigned_address (h : Trusting assigned s) (hdone : dhcpIsDone s.dhcp = true) :
    assigned s.ourMac s.ourIp := by
  have haddress : s.ourIp = s.dhcp.leasedIp := h.lease.address hdone
  obtain ⟨ack, hack, hconfirms⟩ := h.lease.confirmed hdone
  rw [haddress]
  exact h.acks ack (List.mem_of_head? hack) _ _ ⟨hconfirms.clientMac, hconfirms.yourIp, hconfirms.type⟩

/-- Two hosts with different MACs that hold a lease have different addresses. -/
theorem leases_distinct [DecidableEq ι] (hassigned : ∀ mac mac' ip, assigned mac ip → assigned mac' ip → mac = mac')
    (h : Reaches (networkExec Op.exec) (Leasing assigned)
      (fun host => booted (application host) (time host) (entropy host)) hosts) {host other : ι}
    (hmac : (hosts host).ourMac ≠ (hosts other).ourMac) (hdone : dhcpIsDone (hosts host).dhcp = true)
    (hdone' : dhcpIsDone (hosts other).dhcp = true) : (hosts host).ourIp ≠ (hosts other).ourIp := by
  have htrusting : ∀ host, Trusting assigned (hosts host) := by
    apply network_invariant (I := fun _ => Trusting assigned) h
    · intro host
      exact booted_trusting _ _ _
    · intro net host op hall met
      exact exec_trusting (hall host) met.lease met.honest
  intro hsame
  apply hmac
  apply hassigned _ _ (hosts host).ourIp
  · exact (htrusting host).assigned_address hdone
  · rw [hsame]
    exact (htrusting other).assigned_address hdone'

def otherMac : Mac := ⟨#v[2, 0, 0, 0, 0, 2]⟩

def twoLeases (mac : Mac) (ip : Ip) : Prop := mac = zeroMac ∧ ip = 0x0A000001 ∨ mac = otherMac ∧ ip = 0x0A000002

instance (mac : Mac) (ip : Ip) : Decidable (twoLeases mac ip) := inferInstanceAs (Decidable (_ ∨ _))

theorem twoLeases_once (mac mac' : Mac) (ip : Ip) (h : twoLeases mac ip) (h' : twoLeases mac' ip) : mac = mac' := by
  rcases h with ⟨rfl, rfl⟩ | ⟨rfl, rfl⟩
  · rcases h' with ⟨rfl, _⟩ | ⟨_, hip⟩
    · rfl
    · exact absurd hip (by decide)
  · rcases h' with ⟨_, hip⟩ | ⟨rfl, _⟩
    · exact absurd hip (by decide)
    · rfl

def leaseRunGuard (s : Stack) : Op → Bool
  | .setOurIp _ | .setOurNetmask _ => false
  | .setOurMac _ => dhcpIsDone s.dhcp = false
  | _ => true

/-- A frame that waits for the host carries a reply with an address that is assigned to the MAC in it. -/
def leasingGuard (hosts : Bool → Stack) (step : Bool × Op) : Bool :=
  leaseRunGuard (hosts step.1) step.2 && (nextFrame (hosts step.1)).all fun frame =>
    twoLeases (readMac (datagram frame).data ((datagram frame).index + 28))
      (readBe32 (datagram frame).data ((datagram frame).index + 16))

theorem leasing_of_guard {hosts : Bool → Stack} {step : Bool × Op} (h : leasingGuard hosts step = true) :
    Leasing twoLeases hosts step := by
  obtain ⟨hlease, hframe⟩ := Bool.and_eq_true_iff.mp h
  constructor
  · generalize step.2 = op at hlease
    cases op with
    | setOurIp ip => cases hlease
    | setOurNetmask netmask => cases hlease
    | setOurMac mac =>
      have hdone : dhcpIsDone (hosts step.1).dhcp = false := of_decide_eq_true hlease
      exact hdone
    | _ => trivial
  · intro _ frame hnext _ _ _ _ _ mac ip hack
    rw [hnext, Option.all_some] at hframe
    have hassigned := of_decide_eq_true hframe
    rwa [hack.clientMac, hack.yourIp] at hassigned

/-- A reply to the host with this MAC. -/
def replyTo (mac : Mac) (ip : Ip) (messageType : UInt8) : List UInt8 :=
  [dhcpOpcodeReply, 1, 6, 0] ++ be32Bytes 0 ++ List.replicate 8 0 ++ be32Bytes ip ++ List.replicate 8 0 ++ macBytes mac ++
    List.replicate 202 0 ++ be32Bytes magicCookie ++ replyOptions messageType ++ subnetMaskOption 0xFFFFFF00 ++ [dhcpOptionEnd]

/-- A host with this MAC gets a lease. -/
def leases (mac : Mac) (ip : Ip) : List Op :=
  [.setOurMac mac, .dhcpStart] ++ answered 0 (replyTo mac ip dhcpMessageTypeOffer) ++
    answered 1 (replyTo mac ip dhcpMessageTypeAck)

/-- One host after the other gets its lease. -/
theorem leases_distinct_two :
    ∃ hosts : Bool → Stack, Reaches (networkExec Op.exec) (Leasing twoLeases)
        (fun _ => booted zeroApplication 0 fun _ => 0) hosts ∧ (hosts false).dhcp.state = .bound ∧
      (hosts true).dhcp.state = .bound ∧ (hosts false).ourIp ≠ (hosts true).ourIp := by
  have hrun : runs (networkExec Op.exec) leasingGuard (fun hosts => (hosts false).dhcp.state = .bound ∧
        (hosts true).dhcp.state = .bound ∧ (hosts false).ourMac ≠ (hosts true).ourMac)
      ((leases zeroMac 0x0A000001).map (fun op => (false, op)) ++ (leases otherMac 0x0A000002).map fun op => (true, op))
      (fun _ => booted zeroApplication 0 fun _ => 0) = true := by
    decide +kernel
  obtain ⟨hosts, hreach, hcheck⟩ := reaches_of_runs (Leasing twoLeases) .start
    (fun _ _ _ hguard => leasing_of_guard hguard) hrun
  obtain ⟨hfirst, hsecond, hmac⟩ := of_decide_eq_true hcheck
  have hdistinct := leases_distinct twoLeases_once hreach hmac (by simp [dhcpIsDone, hfirst])
    (by simp [dhcpIsDone, hsecond])
  exact ⟨hosts, hreach, hfirst, hsecond, hdistinct⟩

end MiniIp.Guarantees.DistinctLeases
