import MiniIp.Invariant.DhcpServer
import MiniIp.Invariant.Reception

/-!
# Fragments of IP packets

`verify_ip_header` tests bit 15 of the flags (`IP_FLAG_MORE_FRAGMENTS`, ip.c:12), which is reserved. The more-fragments
bit is bit 13, and the offset is not looked at. So a fragment is handed on to the protocol, unless it is refused for a
reason that has nothing to do with fragments.
-/

set_option autoImplicit false

namespace MiniIp.Guarantees.Fragments

open MiniIp.Source MiniIp.Invariant MiniIp.Library.Runs MiniIp.Library.Wp

/-- The flags and the offset of the IP header. -/
def flagsAndOffset (p : NetworkPacket) : UInt16 := readBe16 p.data (p.index + 6)

/-- The more-fragments bit is set, or the offset is not zero. -/
def IsFragment (p : NetworkPacket) : Prop := flagsAndOffset p &&& 0x2000 ≠ 0 ∨ flagsAndOffset p &&& 0x1FFF ≠ 0

instance (p : NetworkPacket) : Decidable (IsFragment p) := inferInstanceAs (Decidable (_ ∨ _))

def ReservedBit (p : NetworkPacket) : Prop := flagsAndOffset p &&& 0x8000 ≠ 0

/-- `handle_ip` gives the packet back and calls no handler: it does so whatever the handlers are. -/
def Dropped (s : Stack) (packet : PacketId) : Prop :=
  ∀ udp icmp, wp (handleIpWith udp icmp packet) (fun _ t => GivenBack packet s t) (fun _ _ => False) s

/-- What the code demands of a packet beside the flags: a long enough frame, the version, a header that ends within the
packet, a target of this host and one of two protocols. -/
structure OtherwiseTaken (ourIp : Ip) (p : NetworkPacket) : Prop where
  long : ipHeaderSize < sizeT p.length
  version : p.data p.index >>> 4 = 4
  header : ipHeaderLength p.data p.index < sizeT (trimmedLength p)
  target : shouldFilterAway ourIp (readBe32 p.data (p.index + 16)) = false
  protocol : p.data (p.index + 9) = ipProtocolUdp ∨ p.data (p.index + 9) = ipProtocolIcmp

variable {s : Stack} {p : NetworkPacket} {packet : PacketId} {ourIp : Ip}

theorem accepted_iff :
    ipHeaderSize < sizeT p.length ∧ (IpAccepts ourIp ipProtocolUdp p ∨ IpAccepts ourIp ipProtocolIcmp p) ↔
      OtherwiseTaken ourIp p ∧ ¬ ReservedBit p := by
  simp only [IpAccepts, verifyIpHeader_iff, ReservedBit, flagsAndOffset, ipFlagMoreFragments, not_not]
  constructor
  · rintro ⟨hlong, ⟨⟨hversion, hflags, hheader⟩, htarget, hudp⟩ | ⟨⟨hversion, hflags, hheader⟩, htarget, hicmp⟩⟩
    · exact ⟨⟨hlong, hversion, hheader, htarget, .inl hudp⟩, hflags⟩
    · exact ⟨⟨hlong, hversion, hheader, htarget, .inr hicmp⟩, hflags⟩
  · rintro ⟨⟨hlong, hversion, hheader, htarget, hudp | hicmp⟩, hflags⟩
    · exact ⟨hlong, .inl ⟨⟨hversion, hflags, hheader⟩, htarget, hudp⟩⟩
    · exact ⟨hlong, .inr ⟨⟨hversion, hflags, hheader⟩, htarget, hicmp⟩⟩

/-- A handler that keeps the packet. -/
theorem not_dropped (hlong : ipHeaderSize < sizeT (s.packets packet).length)
    (haccepts : IpAccepts s.ourIp ipProtocolUdp (s.packets packet) ∨
      IpAccepts s.ourIp ipProtocolIcmp (s.packets packet)) : ¬ Dropped s packet := by
  intro hdropped
  have hkeeps := hdropped (fun _ => pure ()) fun _ => pure ()
  have hpool : (ipDelivered s packet).freeNetworkPackets = packet :: s.freeNetworkPackets := by
    rcases haccepts with hudp | hicmp
    · rw [wp_handleIpWith_udp hlong hudp] at hkeeps
      exact hkeeps.1
    · rw [wp_handleIpWith_icmp hlong hicmp] at hkeeps
      exact hkeeps.1
  exact List.cons_ne_self packet s.freeNetworkPackets hpool.symm

theorem dropped_iff (s : Stack) (packet : PacketId) :
    Dropped s packet ↔ ReservedBit (s.packets packet) ∨ ¬ OtherwiseTaken s.ourIp (s.packets packet) := by
  constructor
  · intro hdropped
    by_contra hneither
    rw [not_or, not_not] at hneither
    obtain ⟨hlong, haccepts⟩ := accepted_iff.mpr hneither.symm
    exact not_dropped hlong haccepts hdropped
  · intro hrefused udp icmp
    apply handleIpWith_refused
    intro haccepted
    obtain ⟨htaken, hclear⟩ := accepted_iff.mp haccepted
    rcases hrefused with hreserved | hother
    · exact hclear hreserved
    · exact hother htaken

/-- A fragment is dropped exactly where its reserved bit is set or it is refused anyway. -/
theorem fragments_dropped_iff (s : Stack) (packet : PacketId) :
    (IsFragment (s.packets packet) → Dropped s packet) ↔
      (IsFragment (s.packets packet) →
        ReservedBit (s.packets packet) ∨ ¬ OtherwiseTaken s.ourIp (s.packets packet)) := by
  rw [dropped_iff]

instance (frame : NetworkPacket) : Decidable (CarriesIp frame) := inferInstanceAs (Decidable (_ = _))

/-- The first fragment of a datagram of 500 bytes for port 68. -/
def firstFragment : List UInt8 :=
  [0xFF, 0xFF, 0xFF, 0xFF, 0xFF, 0xFF, 2, 0, 0, 0, 0, 1, 0x08, 0x00,
    0x45, 0, 0, 44, 0, 7, 0x20, 0, 64, 17, 0, 0, 10, 0, 0, 2, 10, 0, 0, 1,
    0, 67, 0, 68, 1, 252, 0, 0, 1, 2, 3, 4, 5, 6, 7, 8, 9, 10, 11, 12, 13, 14, 15, 16]

/-- The 16 bytes of the fragment are queued as a datagram. -/
theorem fragment_queued :
    ∃ s frame, Reaches Op.exec (fun _ _ => True) (booted zeroApplication 0 fun _ => 0) s ∧ nextFrame s = some frame ∧
      CarriesIp frame ∧ IsFragment (macStripped frame) ∧ headDatagram s dhcpClientPort = none ∧
      wp receivePacket (fun _ t => ∃ p, headDatagram t dhcpClientPort = some p ∧ p.length = 16) (fun _ _ => False) s := by
  have hrun : runs Op.exec (fun _ _ => true)
      (fun s => ((nextFrame s).any fun frame => CarriesIp frame ∧ IsFragment (macStripped frame)) = true ∧
        (headDatagram s dhcpClientPort).isNone = true ∧
        returnsWith (fun t => (headDatagram t dhcpClientPort).any fun p => p.length = 16) receivePacket s = true)
      [.dhcpStart, .deliver 0 60 firstFragment] (booted zeroApplication 0 fun _ => 0) = true := by
    decide +kernel
  obtain ⟨s, hreach, hcheck⟩ := reaches_of_runs (fun _ _ => True) .start (fun _ _ _ _ => trivial) hrun
  obtain ⟨hframe, hnone, hreturns⟩ := of_decide_eq_true hcheck
  rw [Option.any_eq_true] at hframe
  obtain ⟨frame, hnext, hfragment⟩ := hframe
  obtain ⟨hip, hfragment⟩ := of_decide_eq_true hfragment
  refine ⟨s, frame, hreach, hnext, hip, hfragment, Option.isNone_iff_eq_none.mp hnone, ?_⟩
  apply wp_next (wp_of_returnsWith hreturns)
  intro _ t hqueued
  rw [Option.any_eq_true] at hqueued
  obtain ⟨p, hhead, hlength⟩ := hqueued
  exact ⟨p, hhead, of_decide_eq_true hlength⟩

end MiniIp.Guarantees.Fragments
