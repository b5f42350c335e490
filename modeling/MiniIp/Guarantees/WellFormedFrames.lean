import MiniIp.Invariant.Forming
import MiniIp.Guarantees.UdpRoundTrip

/-!
# What the stack puts on the wire

Every frame that a run hands to `gmac_send` is a packet of ARP, a datagram that has been passed to `udp_send_zero_copy`,
or an echo reply: byte for byte with the headers of its layers, with lengths and checksums that are right, and from
an address that the host has had. Left open are the target MAC of a request of ARP, which the sender does not set, and
the ping that an echo reply answers. A packet of IPv4 goes to all hosts or to the owner of its target address, if the answers
of ARP that the host has taken are true and no entry of the table has been evicted. It does not matter how long a packet
has waited for its MAC address and what has been received meanwhile.

The run leaves room for the headers (`LeavesRoom`), and its packets come from the protocols and not from a caller of
`arp_send`.
-/

set_option autoImplicit false

namespace MiniIp.Guarantees.WellFormedFrames

open MiniIp.Source MiniIp.Invariant MiniIp.Library.Runs MiniIp.Library.Wp

variable {addresses : Ip → Prop} {owner : Ip → Mac → Prop} {application : Application} {time : Time}
  {entropy : Nat → UInt32} {s : Stack}

/-- A ping of eight bytes from 10.0.0.2. -/
def pingFrame : List UInt8 :=
  macBytes broadcastMac ++ macBytes zeroMac ++ be16Bytes etherTypeIpv4 ++
    [0x45, 0, 0, 28, 0, 0, 0x40, 0, 0xFF, 1, 0, 0, 10, 0, 0, 2, 10, 0, 0, 1] ++ [8, 0, 0, 0, 0, 1, 0, 1]

def arpFrameFrom (operation : UInt16) : List UInt8 :=
  macBytes broadcastMac ++ macBytes zeroMac ++ be16Bytes etherTypeArp ++
    arpBytes operation zeroMac 0x0A000002 zeroMac 0x0A000001

/-- A datagram is broadcast, a ping waits until its sender is found, and a question for the host is answered. -/
def fourKinds : List Op :=
  [.setOurIp 0x0A000001, .udpSend UdpRoundTrip.threeBytes 3 5 7 0xFFFFFFFF, .deliver 0 60 pingFrame, .receive,
    .deliver 1 60 (arpFrameFrom arpOperationReply), .receive, .deliver 2 60 (arpFrameFrom arpOperationRequest), .receive]

def oneAddress (ip : Ip) : Prop := ip = 0 ∨ ip = 0x0A000001

instance (ip : Ip) : Decidable (oneAddress ip) := inferInstanceAs (Decidable (_ ∨ _))

def neighbor (ip : Ip) (mac : Mac) : Prop := ip = 0x0A000002 ∧ mac = zeroMac

instance (ip : Ip) (mac : Mac) : Decidable (neighbor ip mac) := inferInstanceAs (Decidable (_ ∧ _))

/-- The host keeps to its address, and the frame that waits for it is a packet of IPv4 with a whole header, or a packet of
ARP from the neighbor. -/
def wireGuard (s : Stack) (op : Op) : Bool :=
  returnsWith (fun t => oneAddress t.ourIp) op.exec s && (nextFrame s).all fun frame =>
    (readBe16 frame.data (frame.index + 12) ≠ etherTypeIpv4 ∨
      20 ≤ ipHeaderLength (macStripped frame).data (macStripped frame).index) ∧
    (readBe16 frame.data (frame.index + 12) ≠ etherTypeArp ∨
      neighbor (arpSendersIp (macStripped frame)) (arpSendersMac (macStripped frame)))

theorem conforming_of_guard {op : Op} (hop : op ∈ fourKinds) (h : wireGuard s op = true) : Conforming oneAddress neighbor s op := by
  obtain ⟨hreturns, hfits⟩ := Bool.and_eq_true_iff.mp h
  have haddress : ∀ t, op.exec s = .ok () t → oneAddress t.ourIp := by
    intro t ht
    have hchecked := wp_ok (wp_of_returnsWith hreturns) ht
    exact of_decide_eq_true hchecked
  have hping : ∀ frame, nextFrame s = some frame → ¬ ShortHeaderPing s.ourIp frame := by
    rintro frame hframe ⟨hip, _, _, hshort⟩
    rw [hframe, Option.all_some] at hfits
    rcases (of_decide_eq_true hfits).1 with hother | hwhole
    · exact hother hip
    · exact absurd hshort (not_lt.mpr hwhole)
  have htruth : HearsTruth neighbor s := by
    intro frame hframe harp _
    rw [hframe, Option.all_some] at hfits
    exact (of_decide_eq_true hfits).2.resolve_left fun hother => hother harp
  have hsize : (0 : Int) ≤ 3 := by decide
  have hroom : LeavesRoom s op := by
    simp only [fourKinds, List.mem_cons, List.not_mem_nil, or_false] at hop
    rcases hop with rfl | rfl | rfl | rfl | rfl | rfl | rfl | rfl
    · trivial
    · exact hsize
    · trivial
    · exact hping
    · trivial
    · exact hping
    · trivial
    · exact hping
  have hframed : ∀ bytes ip, op ≠ .sendToIp bytes ip := by
    rintro bytes ip rfl
    simp [fourKinds, Op.deliver] at hop
  exact ⟨hroom, hframed, haddress, fun _ => htruth⟩

end MiniIp.Guarantees.WellFormedFrames
