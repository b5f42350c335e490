import MiniIp.Guarantees.UdpRoundTrip
import MiniIp.Guarantees.UnresolvedNetwork
import MiniIp.Invariant.Forming

/-!
# What is received has been sent

Any number of hosts run the stack, and the packets of IPv4 that a host receives are frames that some host has sent, with
padding behind them. Frames may be lost, repeated, delayed and reordered, and those of ARP may come from anybody. No
application frames a packet of IPv4 itself, and what it sends leaves room for the headers.
Then every datagram that waits at a port has been sent to this port by one of the hosts, with this payload,
from this port, and from an address that the host has had.

The receiver looks at no checksum (`handle_udp`, udp.c:166-197), and the lengths that it goes by are those of the IP header
and of the frame. What is received is still what has been sent because the sender's headers are right.
-/

set_option autoImplicit false

namespace MiniIp.Guarantees.AuthenticDatagrams

open MiniIp.Source MiniIp.Invariant MiniIp.Library.Runs MiniIp.Library.Wp

variable {ι : Type} {addresses : ι → Ip → Prop} {own : Ip → Prop} {owner : Ip → Mac → Prop}
  {hosts : ι → Stack} {application : ι → Application}
  {time : ι → Time} {entropy : ι → Nat → UInt32} {trace : List Event} {k : NetworkPacket} {s t : Stack}
  {sent packet body padding : List UInt8} {ourIp ip : Ip} {protocol : UInt8}

/-- The datagram has been sent to the port by one of the hosts. -/
def Authentic (addresses : ι → Ip → Prop) (hosts : ι → Stack) (port : Port) (k : NetworkPacket) : Prop :=
  ∃ sender, ∃ d ∈ sentDatagrams (hosts sender).trace, d.destPort = port ∧ d.sourcePort = k.sourcePort ∧
    d.ip = k.targetIp ∧ d.payload = k.payload ∧ addresses sender k.sendersIp

/-- What happens on the network. A host that sends leaves room for the headers and stays within the size of a packet, it
frames no packet of IPv4 itself (`arp_send` is called by the stack only), it has its own addresses only, and a packet of
IPv4 that it receives is the frame of some host, with padding. -/
structure Exchanging (addresses : ι → Ip → Prop) (hosts : ι → Stack) (step : ι × Op) : Prop where
  room : step.2 ≠ .receive → LeavesRoom (hosts step.1) step.2
  framed : ∀ bytes ip, step.2 ≠ .sendToIp bytes ip
  address : ∀ t, step.2.exec (hosts step.1) = .ok () t → addresses step.1 t.ourIp
  heard : step.2 = .receive → ∀ frame, nextFrame (hosts step.1) = some frame → CarriesIp frame →
    ∃ sender, ∃ sent ∈ sentFrames (hosts sender).trace, ∃ padding, frame.payload = sent ++ padding

theorem ipPacket_fields {memory : Memory} {pointer : Int} {size : ℕ} (h : IpPacket protocol ourIp ip body packet)
    (hread : readBytes memory pointer size = packet ++ padding) :
    ∃ length, IpFields memory pointer length protocol ourIp ip := by
  obtain ⟨length, checksum, _, _, rfl⟩ := h
  rw [List.append_assoc] at hread
  exact ⟨length, ipFields_of_bytes hread⟩

/-- A packet of IPv4 is no packet of ARP. -/
theorem ipFrame_content (h : WireFrame own owner trace sent) (hframe : k.payload = sent ++ padding) (hip : CarriesIp k) :
    ∃ mac ourMac target packet, IpContent own (sentDatagrams trace) target packet ∧
      sent = macHeaderBytes mac ourMac etherTypeIpv4 ++ packet ∧
      ∃ size, readBytes k.data (k.index + 14) size = packet ++ padding := by
  have hother : etherTypeArp ≠ etherTypeIpv4 := by decide
  cases h with
  | @ip packet mac target ourMac content _ =>
    obtain ⟨_, hread⟩ := UnresolvedNetwork.header_fields (macBytes_length mac) (macBytes_length ourMac) hframe
    exact ⟨mac, ourMac, target, packet, content, rfl, hread⟩
  | arpRequest mac ourMac targetIp own =>
    obtain ⟨htype, _⟩ := UnresolvedNetwork.header_fields (macBytes_length broadcastMac) (macBytes_length ourMac) hframe
    exact absurd (htype.symm.trans hip) hother
  | arpReply mac ourMac targetIp own =>
    obtain ⟨htype, _⟩ := UnresolvedNetwork.header_fields (macBytes_length mac) (macBytes_length ourMac) hframe
    exact absurd (htype.symm.trans hip) hother

/-- No host sends a ping, and least of all one with a header that is too short. -/
theorem wholeHeader (h : WireFrame own owner trace sent) (hframe : k.payload = sent ++ padding) : ¬ ShortHeaderPing ip k := by
  rintro ⟨hip, _, _, hshort⟩
  obtain ⟨_, _, _, packet, hcontent, _, size, hread⟩ := ipFrame_content h hframe hip
  have hversion : k.data (k.index + 14) = 0x45 := by
    cases hcontent with
    | datagram sent own udp packed =>
      obtain ⟨_, hfields⟩ := ipPacket_fields packed hread
      exact hfields.version
    | echo own icmp packed =>
      obtain ⟨_, hfields⟩ := ipPacket_fields packed hread
      exact hfields.version
  have hlength : ipHeaderLength (macStripped k).data (macStripped k).index = 20 := by
    show ipHeaderLength k.data (k.index + 14) = 20
    rw [ipHeaderLength, hversion]
    rfl
  rw [hlength, ipHeaderSize] at hshort
  omega

/-- The frame of a datagram. -/
theorem datagramFrame_of_wire {d : Datagram} (mac ourMac : Mac) (hudp : UdpBody d ourIp body)
    (hip : IpPacket ipProtocolUdp ourIp d.ip body packet) :
    DatagramFrame d.sourcePort d.destPort ourIp d.ip d.payload (macHeaderBytes mac ourMac etherTypeIpv4 ++ packet) := by
  obtain ⟨length, udpChecksum, _, _, rfl⟩ := hudp
  obtain ⟨total, ipChecksum, htotal, _, rfl⟩ := hip
  refine ⟨macBytes mac ++ macBytes ourMac, total, ipChecksum, length, udpChecksum, ?_, ?_, ?_⟩
  · rw [List.length_append, macBytes_length, macBytes_length]
  · rw [htotal, List.length_append, udpHeaderBytes_length]
    omega
  · rw [macHeaderBytes, List.append_assoc]

/-- A frame that reaches `handle_udp` holds a datagram that has been sent. -/
theorem udpFrame_holds (h : WireFrame own owner trace sent) (hframe : k.payload = sent ++ padding) (hudp : CarriesUdp ip k) :
    ∃ d ∈ sentDatagrams trace, ∃ ourIp, own ourIp ∧ HoldsDatagram d.sourcePort d.destPort ourIp d.ip d.payload k := by
  obtain ⟨hip, _, _, hprotocol⟩ := hudp
  obtain ⟨mac, ourMac, target, packet, hcontent, rfl, size, hread⟩ := ipFrame_content h hframe hip
  cases hcontent with
  | @datagram d ourIp body _ hsent hown hbody hpacket =>
    exact ⟨d, hsent, ourIp, hown, holdsDatagram (datagramFrame_of_wire mac ourMac hbody hpacket) hframe⟩
  | echo own icmp packed =>
    obtain ⟨_, hfields⟩ := ipPacket_fields packed hread
    have hsame : ipProtocolIcmp = ipProtocolUdp := hfields.protocol.symm.trans hprotocol
    exact absurd hsame (by decide)

theorem holds_targetIp {sourcePort destPort : Port} {payload : List UInt8}
    (h : HoldsDatagram sourcePort destPort ourIp ip payload k) : (datagram k).targetIp = ip := by
  obtain ⟨_, _, hheader⟩ := h.header
  exact hheader.target

def authenticContent (addresses : ι → Ip → Prop) (hosts : ι → Stack) : QueueContent :=
  fun _ port _ k => Authentic addresses hosts port k

/-- What a host keeps, relative to what all hosts have sent. -/
structure Relayed (addresses : ι → Ip → Prop) (hosts : ι → Stack) (host : ι) (s : Stack) : Prop where
  queues : Intact False (authenticContent addresses hosts) s
  formed : Formed (addresses host) (fun _ _ => True) s
  address : addresses host s.ourIp

/-- The frame that a host receives next brings what has been sent. -/
theorem brings_authentic {host : ι} (h : ∀ j, Relayed addresses hosts j (hosts j))
    (hheard : ∀ frame, nextFrame (hosts host) = some frame → CarriesIp frame →
      ∃ sender, ∃ sent ∈ sentFrames (hosts sender).trace, ∃ padding, frame.payload = sent ++ padding) :
    Brings (authenticContent addresses hosts) (hosts host) := by
  intro frame hnext hudp c _ p
  obtain ⟨sender, sent, hsent, padding, hframe⟩ := hheard frame hnext hudp.1
  obtain ⟨d, hd, ourIp, hown, hholds⟩ := udpFrame_holds ((h sender).formed.frames sent hsent) hframe hudp
  obtain ⟨hpayload, hsourcePort, hsendersIp⟩ := hholds.datagram
  refine ⟨sender, d, hd, hholds.datagramPort.symm, hsourcePort.symm, (holds_targetIp hholds).symm, hpayload.symm, ?_⟩
  rw [hsendersIp]
  exact hown

theorem intact_content {U V : QueueContent} (h : Intact False U s) (hUV : ∀ c port p k, U c port p k → V c port p k) :
    Intact False V s := by
  obtain ⟨limit, held, hs⟩ := h
  exact ⟨limit, held, { hs with udpContent := fun c p hp => hUV _ _ _ _ (hs.udpContent c p hp) }⟩

/-- A host has sent more. -/
theorem Relayed.grow [DecidableEq ι] {host other : ι} (h : Relayed addresses hosts host s)
    (hsuffix : (hosts other).trace <:+ t.trace) : Relayed addresses (Function.update hosts other t) host s := by
  refine ⟨intact_content h.queues ?_, h.formed, h.address⟩
  rintro c port p k ⟨sender, d, hd, hfields⟩
  refine ⟨sender, d, ?_, hfields⟩
  by_cases hsender : sender = other
  · subst hsender
    rw [Function.update_self]
    exact sentDatagrams_later hsuffix hd
  · rw [Function.update_of_ne hsender]
    exact hd

/-- One host takes a step. -/
theorem exec_relayed {host : ι} {op : Op} (h : ∀ j, Relayed addresses hosts j (hosts j))
    (met : Exchanging addresses hosts (host, op)) :
    wp op.exec (fun _ t => (hosts host).trace <:+ t.trace ∧ Relayed addresses hosts host t) (fun _ _ => True) (hosts host) := by
  have hroom : LeavesRoom (hosts host) op := by
    by_cases hop : op = .receive
    · subst hop
      intro frame hnext hping
      obtain ⟨sender, sent, hsent, padding, hframe⟩ := met.heard rfl frame hnext hping.1
      exact wholeHeader ((h sender).formed.frames sent hsent) hframe hping
    · exact met.room hop
  have hbrings : op = .receive → Brings (authenticContent addresses hosts) (hosts host) := by
    intro hop
    exact brings_authentic h (met.heard hop)
  have hintact := exec_intact (h host).queues False.elim hbrings
  have hformed := exec_wired formed_wired (h host).queues (h host).formed (h host).address hroom met.framed
    fun _ _ _ _ _ => trivial
  have hgrown : wp op.exec (fun _ t => (hosts host).trace <:+ t.trace) (fun _ _ => True) (hosts host) := exec_past op
  unfold wp
  cases hexec : op.exec (hosts host) with
  | ok _ t =>
    have hlater := wp_ok hgrown hexec
    have hqueues := wp_ok hintact hexec
    have hwire := wp_ok hformed hexec
    exact ⟨hlater, hqueues, hwire, met.address t hexec⟩
  | error _ _ => trivial

/-- Whatever a host takes from a port has been sent to it. -/
theorem received_was_sent [DecidableEq ι] (hzero : ∀ host, addresses host 0)
    (h : Reaches (networkExec Op.exec) (Exchanging addresses)
      (fun host => booted (application host) (time host) (entropy host)) hosts)
    (host : ι) (port : Port) :
    wp (udpReceiveZeroCopy port) (fun taken t => ∀ p, taken = some p → Authentic addresses hosts port (t.packets p))
      (fun _ _ => True) (hosts host) := by
  have hall : ∀ host, Relayed addresses hosts host (hosts host) := by
    apply network_relative (M := Relayed addresses) (R := fun s t => s.trace <:+ t.trace) h
    · intro host
      have hfresh : Fresh _ _ _ (booted (application host) (time host) (entropy host)) := booted_fresh
      refine ⟨⟨0, [], booted_sound⟩, booted_formed, ?_⟩
      rw [hfresh.ours.1]
      exact hzero host
    · intro net i j t s hsuffix hs
      exact hs.grow hsuffix
    · intro net i op hall met
      exact exec_relayed hall met
  obtain ⟨limit, held, hs⟩ := (hall host).queues
  have htake : wp (udpReceiveZeroCopy port) _ (Stopped False _ limit 96) (hosts host) := udpReceiveZeroCopy_sound hs
  apply wp_partial htake
  rintro taken t ⟨_, htaken⟩ p hp
  obtain ⟨_, hauthentic, _⟩ := htaken p hp
  exact hauthentic

def ofTwo (_ : Bool) (ip : Ip) : Prop := UnresolvedNetwork.Addressed UnresolvedNetwork.twoAddresses ip

/-- The second host listens, and receives what the first one broadcasts. -/
def listenedAndBroadcast : List (Bool × Op) :=
  [(false, .setOurIp 0x0A000001), (true, .udpListen 7 2), (false, .udpSend UdpRoundTrip.threeBytes 3 5 7 0xFFFFFFFF),
    (true, .deliver 0 60 UdpRoundTrip.threeBytesFrame), (true, .receive)]

theorem exchanging_of_guard {hosts : Bool → Stack} {step : Bool × Op} (hstep : step ∈ listenedAndBroadcast)
    (h : UnresolvedNetwork.networkGuard hosts step = true) : Exchanging ofTwo hosts step := by
  have hsize : (0 : Int) ≤ 3 := by decide
  constructor
  · intro hother
    simp only [listenedAndBroadcast, List.mem_cons, List.not_mem_nil, or_false] at hstep
    rcases hstep with rfl | rfl | rfl | rfl | rfl
    · trivial
    · trivial
    · exact hsize
    · trivial
    · exact absurd rfl hother
  · intro bytes ip hop
    obtain ⟨host, op⟩ := step
    obtain rfl : op = .sendToIp bytes ip := hop
    simp [listenedAndBroadcast, Op.deliver] at hstep
  · exact UnresolvedNetwork.addressed_of_guard h
  · intro _ frame hframe _
    obtain ⟨sender, sent, padding, hsent, _, hpayload⟩ := UnresolvedNetwork.heard_of_guard h hframe
    exact ⟨sender, sent, hsent, padding, hpayload⟩

theorem received_was_sent_three : ∃ hosts : Bool → Stack,
    Reaches (networkExec Op.exec) (Exchanging ofTwo) (fun _ => booted zeroApplication 0 fun _ => 0) hosts ∧
      (headDatagram (hosts true) 7).map NetworkPacket.payload = some [97, 98, 99] ∧
      wp (udpReceiveZeroCopy 7) (fun taken t => ∀ p, taken = some p → Authentic ofTwo hosts 7 (t.packets p))
        (fun _ _ => True) (hosts true) := by
  have hrun : runs (networkExec Op.exec) UnresolvedNetwork.networkGuard
      (fun hosts => (headDatagram (hosts true) 7).map NetworkPacket.payload = some [97, 98, 99]) listenedAndBroadcast
      (fun _ => booted zeroApplication 0 fun _ => 0) = true := by
    decide +kernel
  obtain ⟨hosts, hreach, hcheck⟩ := reaches_of_runs (Exchanging ofTwo) .start
    (fun _ hstep _ hguard => exchanging_of_guard hstep hguard) hrun
  exact ⟨hosts, hreach, of_decide_eq_true hcheck, received_was_sent (fun _ => .inl rfl) hreach true 7⟩

end MiniIp.Guarantees.AuthenticDatagrams
