import MiniIp.Guarantees.WellFormedFrames
import MiniIp.Invariant.Ordering

/-!
# Datagrams leave in order and once

The datagrams to an address that a run has sent come from those that were passed to `udp_send_zero_copy`: each frame carries
one of them, no two frames the same, and the frames to one host are in the order of the calls, and so are the frames to all
hosts. A frame to all hosts goes out at once and may overtake a datagram that waits for a MAC address (arp.c:196-217).
Datagrams may be lost: the queue of an entry keeps two (arp.c:180-192), and an entry that is not answered is freed.

This holds as long as no entry of the table is evicted, and no answer of ARP names the MAC of all hosts.
-/

set_option autoImplicit false

namespace MiniIp.Guarantees.DatagramOrder

open MiniIp.Source MiniIp.Invariant MiniIp.Library.Runs MiniIp.Library.Wp MiniIp.Library.Lanes

variable {application : Application} {time : Time} {entropy : Nat → UInt32} {s : Stack}

/-- The operation leaves room for its headers, sends no packet of its own making, and brings no answer of ARP that names
the MAC of all hosts. -/
structure Orderly (s : Stack) (op : Op) : Prop where
  room : LeavesRoom s op
  framed : ∀ bytes ip, op ≠ .sendToIp bytes ip
  one : op = .receive → HearsTruth (fun _ mac => mac ≠ broadcastMac) s

/-- In every run without an eviction, the datagrams to every address leave in order and once. -/
theorem datagrams_in_order (h : Reaches Op.exec Orderly (booted application time entropy) s) (hno : NoEviction s.trace)
    (ip : Ip) : InLanes Carries Departure.toAll (departures ip s.trace) (datagramsTo ip s.trace) := by
  have hwired : WireInvariant (fun _ => True) (fun _ mac => mac ≠ broadcastMac) (KeepsOrder ip) :=
    inOrder_wired fun _ hall => hall rfl
  have hkept := reaches_wired hwired booted_keepsOrder h
    (fun _ _ met => ⟨met.room, met.framed, fun _ _ => trivial, met.one⟩) trivial
  exact ((hkept.1 hno).order 0).lost (List.sublist_append_right _ _)

/-- Three datagrams wait until their target is found, one is lost, and a fourth is sent at once. -/
def fourDatagrams : List Op :=
  [.setOurIp 0x0A000001, .setOurNetmask 0xFFFFFF00, .udpSend UdpRoundTrip.threeBytes 3 5 7 0x0A000002,
    .udpSend UdpRoundTrip.threeBytes 2 5 7 0x0A000002, .udpSend UdpRoundTrip.threeBytes 1 5 7 0x0A000002,
    .deliver 0 60 (WellFormedFrames.arpFrameFrom arpOperationReply), .receive,
    .udpSend UdpRoundTrip.threeBytes 3 6 7 0x0A000002]

/-- The frame that waits for the host is a packet of ARP from one host. -/
def arpGuard (s : Stack) (_ : Op) : Bool := (nextFrame s).all fun frame =>
  readBe16 frame.data (frame.index + 12) ≠ etherTypeIpv4 ∧ arpSendersMac (macStripped frame) ≠ broadcastMac

theorem orderly_of_guard {op : Op} (hop : op ∈ fourDatagrams) (h : arpGuard s op = true) : Orderly s op := by
  have hframe : ∀ frame, nextFrame s = some frame → readBe16 frame.data (frame.index + 12) ≠ etherTypeIpv4 ∧
      arpSendersMac (macStripped frame) ≠ broadcastMac := by
    intro frame hnext
    unfold arpGuard at h
    rw [hnext, Option.all_some] at h
    exact of_decide_eq_true h
  have hping : ∀ frame, nextFrame s = some frame → ¬ ShortHeaderPing s.ourIp frame := by
    rintro frame hnext ⟨hip, _⟩
    exact (hframe frame hnext).1 hip
  have hsize : (0 : Int) ≤ 1 ∧ (0 : Int) ≤ 2 ∧ (0 : Int) ≤ 3 := by decide
  simp only [fourDatagrams, List.mem_cons, List.not_mem_nil, or_false] at hop
  constructor
  · rcases hop with rfl | rfl | rfl | rfl | rfl | rfl | rfl | rfl
    · trivial
    · trivial
    · exact hsize.2.2
    · exact hsize.2.1
    · exact hsize.1
    · trivial
    · exact hping
    · exact hsize.2.2
  · rintro bytes ip rfl
    simp [Op.deliver] at hop
  · intro _ frame hnext _ _
    exact (hframe frame hnext).2

/-- Three of the four datagrams have left. -/
theorem datagrams_in_order_four :
    ∃ s, Reaches Op.exec Orderly (booted zeroApplication 0 fun _ => 0) s ∧
      ((departures 0x0A000002 s.trace).map fun out => (out.toAll, out.packet.length)) =
        [(false, 31), (false, 29), (false, 30)] ∧
      (datagramsTo 0x0A000002 s.trace).length = 4 ∧
      InLanes Carries Departure.toAll (departures 0x0A000002 s.trace) (datagramsTo 0x0A000002 s.trace) := by
  have hrun : runs Op.exec arpGuard (fun s =>
      ((departures 0x0A000002 s.trace).map fun out => (out.toAll, out.packet.length)) =
        [(false, 31), (false, 29), (false, 30)] ∧
      (datagramsTo 0x0A000002 s.trace).length = 4 ∧ NoEviction s.trace) fourDatagrams
      (booted zeroApplication 0 fun _ => 0) = true := by
    decide +kernel
  obtain ⟨s, hreach, hcheck⟩ := reaches_of_runs Orderly .start (fun _ hop _ hguard => orderly_of_guard hop hguard) hrun
  obtain ⟨hleft, hgiven, hno⟩ := of_decide_eq_true hcheck
  exact ⟨s, hreach, hleft, hgiven, datagrams_in_order hreach hno 0x0A000002⟩

end MiniIp.Guarantees.DatagramOrder
