import MiniIp.Guarantees.LostLease
import MiniIp.Guarantees.UdpRoundTrip
import MiniIp.Invariant.Forming

/-!
# Every packet is sent from a confirmed address

Where the DHCP client alone sets the address and the netmask of the host, and the MAC does not change under a lease, every
packet of IPv4 that a run sends has 0.0.0.0 as its source, or an address that a datagram has confirmed which the client
has accepted as an ACK. This also holds of what has been queued under
one lease and is sent under another, and of what is sent after a lease has been lost.

The address is set in `dhcp_task` (dhcp.c:434), and put in a packet in `ip_send` (ip.c:131).
-/

set_option autoImplicit false

namespace MiniIp.Guarantees.ConfirmedSource

open MiniIp.Source MiniIp.Invariant MiniIp.Library.Runs MiniIp.Library.Wp

variable {owner : Ip → Mac → Prop} {application : Application} {time : Time} {entropy : Nat → UInt32} {s t : Stack}
  {trace trace' : List Event} {ip : Ip}

/-- No address yet, or one that an accepted ACK has confirmed. -/
def Confirmed (trace : List Event) (ip : Ip) : Prop :=
  ip = 0 ∨ ∃ p ∈ acceptedPackets isAck trace, ∃ transactionId ourMac serverIp, Confirms transactionId ourMac ip serverIp p

/-- What a step of the run meets. What is sent leaves room for the headers, and the application frames no packet itself.
The address and the netmask come from the client only, and the MAC does not change under a lease (`LeaseRun`). Nothing
false is said about other hosts. -/
structure Configuring (owner : Ip → Mac → Prop) (s : Stack) (op : Op) : Prop where
  room : LeavesRoom s op
  framed : ∀ bytes ip, op ≠ .sendToIp bytes ip
  lease : LeaseRun s op
  truth : op = .receive → HearsTruth owner s

theorem acceptedPackets_later {p : NetworkPacket} (hpast : trace <:+ trace') (hp : p ∈ acceptedPackets isAck trace) :
    p ∈ acceptedPackets isAck trace' := by
  obtain ⟨new, rfl⟩ := hpast
  induction new with
  | nil => exact hp
  | cons event new ih =>
    rw [List.cons_append, acceptedPackets]
    split
    · exact List.mem_append_right _ ih
    · exact ih

theorem Confirmed.later (h : Confirmed trace ip) (hpast : trace <:+ trace') : Confirmed trace' ip := by
  rcases h with hzero | ⟨p, hp, hconfirms⟩
  · exact .inl hzero
  · exact .inr ⟨p, acceptedPackets_later hpast hp, hconfirms⟩

/-- The address is the old one, or the one of the lease that has just begun. -/
theorem exec_confirmed {op : Op} (h : Reaches Op.exec LeaseRun (booted application time entropy) s) (hop : LeaseRun s op) :
    wp op.exec (fun _ t => t.ourIp = s.ourIp ∨ Confirmed t.trace t.ourIp) (fun _ _ => True) s := by
  have hintact := reaches_intact False h fun hfalse => hfalse.elim
  apply wp_partial (wp_and (LostLease.exec_ourIp hintact hop) (h.next hop))
  rintro _ t ⟨hip, hreach⟩
  rcases hip with hsame | hbound
  · exact .inl hsame
  · have hdone : dhcpIsDone (client t).dhcp = true := by simp [dhcpIsDone, client, hbound]
    have hleased : LeasedState t := reaches_leased hreach
    obtain ⟨ack, hack, hconfirms⟩ := hleased.confirmed hdone
    have haddress : t.ourIp = (client t).dhcp.leasedIp := hleased.address hdone
    rw [← haddress] at hconfirms
    exact .inr (.inr ⟨ack, List.mem_of_head? hack, _, _, _, hconfirms⟩)

/-- Said with the ACKs that have been accepted by any later time, since these will not be fewer. -/
def Sourced (owner : Ip → Mac → Prop) (s : Stack) : Prop :=
  ∀ later, s.trace <:+ later → Formed (Confirmed later) owner s ∧ Confirmed later s.ourIp

theorem exec_sourced {op : Op} (h : Reaches Op.exec LeaseRun (booted application time entropy) s) (hs : Sourced owner s)
    (met : Configuring owner s op) : wp op.exec (fun _ t => Sourced owner t) (fun _ _ => True) s := by
  have hintact : Intact False (fun _ _ _ _ => True) s := reaches_intact False h fun hfalse => hfalse.elim
  have haddress := exec_confirmed h met.lease
  have hpast : wp op.exec (fun _ t => s.trace <:+ t.trace) (fun _ _ => True) s := exec_past op
  have hformed := fun later (hlater : s.trace <:+ later) =>
    exec_wired formed_wired hintact (hs later hlater).1 (hs later hlater).2 met.room met.framed met.truth
  unfold wp
  cases hexec : op.exec s with
  | ok _ t =>
    have hsuffix := wp_ok hpast hexec
    intro later hlater
    have hwire := wp_ok (hformed later (hsuffix.trans hlater)) hexec
    refine ⟨hwire, ?_⟩
    have hip := wp_ok haddress hexec
    rcases hip with hsame | hconfirmed
    · rw [hsame]
      exact (hs later (hsuffix.trans hlater)).2
    · exact hconfirmed.later hlater
  | error _ _ => trivial

/-- In every run in which the address comes from DHCP, every frame is sent from a confirmed address. -/
theorem source_confirmed (h : Reaches Op.exec (Configuring owner) (booted application time entropy) s) :
    ∀ frame ∈ sentFrames s.trace, WireFrame (Confirmed s.trace) owner s.trace frame := by
  have hsourced : Sourced owner s := by
    apply h.invariant (I := Sourced owner)
    · intro later _
      have hfresh : Fresh application time entropy (booted application time entropy) := booted_fresh
      exact ⟨booted_formed, .inl hfresh.ours.1⟩
    · intro s op hreach hs met
      exact exec_sourced (hreach.mono fun _ _ hok => hok.lease) hs met
  exact (hsourced s.trace List.suffix_rfl).1.frames

def leasesAndSends : List Op := getsLease ++ [.udpSend UdpRoundTrip.threeBytes 3 5 7 0xFFFFFFFF]

/-- The frame that waits for the host is a packet of IPv4 with a whole header. -/
def wholeGuard (s : Stack) (_ : Op) : Bool := (nextFrame s).all fun frame =>
  readBe16 frame.data (frame.index + 12) ≠ etherTypeArp ∧
    20 ≤ ipHeaderLength (macStripped frame).data (macStripped frame).index

theorem configuring_of_guard {op : Op} (hop : op ∈ leasesAndSends) (h : wholeGuard s op = true) :
    Configuring (fun _ _ => False) s op := by
  have hframe : ∀ frame, nextFrame s = some frame → readBe16 frame.data (frame.index + 12) ≠ etherTypeArp ∧
      20 ≤ ipHeaderLength (macStripped frame).data (macStripped frame).index := by
    intro frame hnext
    unfold wholeGuard at h
    rw [hnext, Option.all_some] at h
    exact of_decide_eq_true h
  have hping : ∀ frame, nextFrame s = some frame → ¬ ShortHeaderPing s.ourIp frame := by
    rintro frame hnext ⟨_, _, _, hshort⟩
    exact absurd hshort (not_lt.mpr (hframe frame hnext).2)
  have hsize : (0 : Int) ≤ 3 := by decide
  simp only [leasesAndSends, getsLease, answered, Op.deliverUdp, Op.deliver, List.cons_append, List.nil_append, List.mem_cons,
    List.not_mem_nil, or_false] at hop
  constructor
  · rcases hop with rfl | rfl | rfl | rfl | rfl | rfl | rfl | rfl
    · trivial
    · trivial
    · exact hping
    · trivial
    · trivial
    · exact hping
    · trivial
    · exact hsize
  · rintro bytes ip rfl
    simp at hop
  · rcases hop with rfl | rfl | rfl | rfl | rfl | rfl | rfl | rfl
    all_goals trivial
  · intro _ frame hnext harp
    exact absurd harp (hframe frame hnext).1

/-- DISCOVER, REQUEST and the datagram have been sent, the last one from the address of the lease. -/
theorem source_confirmed_leased :
    ∃ s, Reaches Op.exec (Configuring fun _ _ => False) (booted zeroApplication 0 fun _ => 0) s ∧
      (sentFrames s.trace).length = 3 ∧ s.ourIp = 0x0A000001 ∧
      ∀ frame ∈ sentFrames s.trace, WireFrame (Confirmed s.trace) (fun _ _ => False) s.trace frame := by
  have hrun : runs Op.exec wholeGuard (fun s => (sentFrames s.trace).length = 3 ∧ s.ourIp = 0x0A000001) leasesAndSends
      (booted zeroApplication 0 fun _ => 0) = true := by
    decide +kernel
  obtain ⟨s, hreach, hcheck⟩ := reaches_of_runs (Configuring fun _ _ => False) .start
    (fun _ hop _ hguard => configuring_of_guard hop hguard) hrun
  obtain ⟨hthree, hip⟩ := of_decide_eq_true hcheck
  exact ⟨s, hreach, hthree, hip, source_confirmed hreach⟩

end MiniIp.Guarantees.ConfirmedSource
