import MiniIp.Invariant.Building
import MiniIp.Invariant.SoundReceive
import MiniIp.Invariant.ClientFrame

/-!
# Sender and receiver of a broadcast

`should_broadcast` (ip.c:107-110) takes an address for a broadcast where its host
bits are all ones. `should_filter_away` (ip.c:163-172) lets pass what is for this
host or for 255.255.255.255. The two agree on every address but one: what the
sender broadcasts to the directed broadcast address of the subnet, every other
host filters away.
-/

set_option autoImplicit false

namespace MiniIp.Guarantees.BroadcastAgreement

open MiniIp.Source MiniIp.Invariant MiniIp.Library.Wp

/-- The packet has been handed to `mac_broadcast`, and no address has been looked up. -/
def Broadcast (packet : PacketId) (s t : Stack) : Prop :=
  ∃ new, t.trace = new ++ s.trace ∧ .macSend packet broadcastMac etherTypeIpv4 ∈ new ∧
    ∀ q ip, .arpSend q ip ∉ new

/-- `ip_send` uses the Ethernet broadcast address. -/
def UsesBroadcast (s : Stack) (packet : PacketId) (ip : Ip) (protocol : UInt8) : Prop :=
  wp (ipSend packet ip protocol) (fun _ t => Broadcast packet s t) (fun _ t => Broadcast packet s t) s

/-- A whole UDP datagram in an IP packet for this address. -/
structure UdpPacketFor (ip : Ip) (p : NetworkPacket) : Prop where
  long : ipHeaderSize < sizeT p.length
  verified : verifyIpHeader p.data p.index (trimmedLength p) = true
  target : readBe32 p.data (p.index + 16) = ip
  udp : p.data (p.index + 9) = ipProtocolUdp
  datagram : udpHeaderSize < sizeT (trimmedLength p - ipHeaderLength p.data p.index)

/-- The packet has come to `handle_udp`. -/
def ReachedUdp (s t : Stack) : Prop :=
  ∃ new index length, t.trace = new ++ s.trace ∧ .window .handleUdp index length udpHeaderSize ∈ new

/-- `handle_ip` does not filter the packet away. -/
def PassesOn (s : Stack) (packet : PacketId) : Prop :=
  wp (handleIp packet) (fun _ t => ReachedUdp s t) (fun _ t => ReachedUdp s t) s

variable {s : Stack} {packet : PacketId} {ip ourIp netmask : Ip}

theorem mask_split (netmask ip : Ip) : ip = ip &&& netmask ||| ip &&& ~~~netmask := by
  apply UInt32.toBitVec_inj.mp
  ext i hi
  simp only [UInt32.toBitVec_or, UInt32.toBitVec_and, UInt32.toBitVec_not, BitVec.getElem_or,
    BitVec.getElem_and, BitVec.getElem_not]
  cases netmask.toBitVec[i] <;> simp

theorem host_bits (netmask net : Ip) :
    ~~~netmask &&& (net &&& netmask ||| ~~~netmask) = ~~~netmask := by
  apply UInt32.toBitVec_inj.mp
  ext i hi
  simp only [UInt32.toBitVec_or, UInt32.toBitVec_and, UInt32.toBitVec_not, BitVec.getElem_or,
    BitVec.getElem_and, BitVec.getElem_not]
  cases netmask.toBitVec[i] <;> simp

/-- In a subnet only one address is broadcast. -/
theorem shouldBroadcast_iff (h : ip &&& netmask = ourIp &&& netmask) :
    shouldBroadcast netmask ip = true ↔ ip = ourIp &&& netmask ||| ~~~netmask := by
  rw [shouldBroadcast, decide_eq_true_iff]
  constructor
  · intro hones
    rw [UInt32.and_comm] at hones
    calc ip = ip &&& netmask ||| ip &&& ~~~netmask := mask_split netmask ip
      _ = ourIp &&& netmask ||| ~~~netmask := by rw [h, hones]
  · intro hip
    rw [hip]
    exact host_bits netmask ourIp

/-- What is not for this host passes only if it is for 255.255.255.255. -/
theorem shouldFilterAway_iff (hours : ourIp ≠ 0) (hip : ip ≠ ourIp) :
    shouldFilterAway ourIp ip = false ↔ ip = 0xFFFFFFFF := by
  simp [shouldFilterAway, hours, hip.symm]

/-- Sending to a known MAC looks up no address. -/
theorem macSend_direct (mac : Mac) (etherType : UInt16) :
    wp (macSend packet mac etherType)
      (fun _ t => ∃ new, t.trace = new ++ s.trace ∧ .macSend packet mac etherType ∈ new ∧
        ∀ q ip, .arpSend q ip ∉ new)
      (fun _ t => ∃ new, t.trace = new ++ s.trace ∧ .macSend packet mac etherType ∈ new ∧
        ∀ q ip, .arpSend q ip ∉ new) s := by
  unfold macSend gmacSend
  simp only [wp_bind, wp_modifyPacket, wp_recordWindow, wp_get, wp_emit, wp_getPacket, wp_ite, wp_throw]
  split
  · exact ⟨[_, _, _, _], rfl, by simp, by simp⟩
  · split
    · exact ⟨[_, _, _, _, _], rfl, by simp, by simp⟩
    · split
      · exact ⟨[_, _, _, _], rfl, by simp, by simp⟩
      · simp only [wp_bind, wp_freeNetworkPacket, wp_modify, wp_getPacket]
        exact ⟨[_, _, _, _, _], rfl, by simp, by simp⟩

theorem arpSend_asks :
    wp (arpSend packet ip) (fun _ t => ∃ new, t.trace = new ++ s.trace ∧ .arpSend packet ip ∈ new)
      (fun _ t => ∃ new, t.trace = new ++ s.trace ∧ .arpSend packet ip ∈ new) s := by
  obtain ⟨rest, hparts, hrest⟩ := arpSend_parts packet ip
  rw [hparts, wp_bind, wp_emit]
  have hasked : ∀ t, DeliverFrame False (s.observe (.arpSend packet ip)) t →
      ∃ new, t.trace = new ++ s.trace ∧ .arpSend packet ip ∈ new := by
    intro t hframe
    obtain ⟨new, htrace, _⟩ := hframe.trace
    exact ⟨new ++ [.arpSend packet ip], by simp [htrace], by simp⟩
  apply wp_mono (hrest () _)
  · intro _ t ht
    exact hasked t ht
  · intro _ t ht
    exact hasked t ht.1

theorem usesBroadcast_iff (protocol : UInt8) :
    UsesBroadcast s packet ip protocol ↔ shouldBroadcast s.ourNetmask ip = true := by
  unfold UsesBroadcast ipSend
  simp only [wp_bind, wp_modifyPacket, wp_recordWindow, wp_get, wp_ite]
  split
  · next hshould =>
    apply iff_of_true _ hshould
    have hsent : ∀ {u t : Stack} {window : Event}, u.trace = window :: s.trace →
        (∀ q a, window ≠ .arpSend q a) → Broadcast packet u t → Broadcast packet s t := by
      intro u t window hu hwindow ht
      obtain ⟨new, htrace, hmac, harp⟩ := ht
      refine ⟨new ++ [window], by simp [htrace, hu], List.mem_append_left _ hmac, fun q a => ?_⟩
      rw [List.mem_append, List.mem_singleton, not_or]
      exact ⟨harp q a, fun heq => hwindow q a heq.symm⟩
    apply wp_mono (macSend_direct broadcastMac etherTypeIpv4)
    · intro _ t ht
      exact hsent rfl (by simp) ht
    · intro _ t ht
      exact hsent rfl (by simp) ht
  · next hshould =>
    apply iff_of_false _ hshould
    intro hbroadcast
    have hnever : ∀ {u t : Stack} {window : Event}, u.trace = window :: s.trace →
        (∃ new, t.trace = new ++ u.trace ∧ .arpSend packet ip ∈ new) → ¬ Broadcast packet s t := by
      intro u t window hu hasked ht
      obtain ⟨asked, hasked, hmem⟩ := hasked
      obtain ⟨new, htrace, _, harp⟩ := ht
      have hsame : new ++ s.trace = (asked ++ [window]) ++ s.trace := by
        rw [← htrace, hasked, hu, List.append_assoc, List.singleton_append]
      rw [List.append_cancel_right hsame] at harp
      exact harp packet ip (List.mem_append_left _ hmem)
    apply wp_absurd
    apply wp_mono (wp_and hbroadcast arpSend_asks)
    · intro _ t ht
      exact hnever rfl ht.2 ht.1
    · intro _ t ht
      exact hnever rfl ht.2 ht.1

/-- `handle_udp` on a datagram that is long enough. -/
theorem handleUdp_reached (h : udpHeaderSize < sizeT (s.packets packet).length) :
    wp (handleUdp packet) (fun _ t => ReachedUdp s t) (fun _ t => ReachedUdp s t) s := by
  unfold handleUdp
  simp only [wp_bind, wp_getPacket, wp_ite, if_neg (not_le.mpr h), wp_recordWindow, wp_modifyPacket,
    wp_get]
  have hkept : ∀ {x : Net Unit} {u : Stack}, Spares False x →
      u.trace = .window .handleUdp (s.packets packet).index (s.packets packet).length udpHeaderSize ::
        s.trace →
      wp x (fun _ t => ReachedUdp s t) (fun _ t => ReachedUdp s t) u := by
    intro x u hx hu
    have hreached : ∀ t, ClientFrame False u t → ReachedUdp s t := by
      intro t hframe
      obtain ⟨new, htrace, _⟩ := hframe.trace
      exact ⟨new ++ [_], _, _, by rw [htrace, hu, List.append_assoc, List.singleton_append],
        List.mem_append_right _ List.mem_cons_self⟩
    apply wp_mono (hx u)
    · intro _ t ht
      exact hreached t ht
    · intro _ t ht
      exact hreached t ht.1
  split
  · exact hkept (freeNetworkPacket_spares packet) rfl
  · exact hkept (udpQueuePacket_spares _ packet) rfl

/-- A UDP datagram that is not filtered away comes to `handle_udp`. -/
theorem passesOn_iff (h : UdpPacketFor ip (s.packets packet)) :
    PassesOn s packet ↔ shouldFilterAway s.ourIp ip = false := by
  unfold PassesOn handleIp
  simp only [wp_bind, wp_getPacket, wp_ite, wp_freeNetworkPacket, if_neg (not_le.mpr h.long),
    wp_recordWindow, wp_modifyPacket, wp_get, h.target, h.udp, if_true, Stack.observe_packets,
    Stack.write_packets, Function.update_self, h.verified]
  rw [if_neg (by simp)]
  split
  · next hfilter =>
    have hours : shouldFilterAway s.ourIp ip = true := hfilter
    rw [hours]
    apply iff_of_false _ (by simp)
    intro hreached
    obtain ⟨new, index, length, htrace, hmem⟩ := hreached
    have hsame : new ++ s.trace = [.freed packet, .window .handleIp (s.packets packet).index
        (s.packets packet).length ipHeaderSize] ++ s.trace := htrace.symm
    rw [List.append_cancel_right hsame] at hmem
    simp at hmem
  · next hfilter =>
    have hours : shouldFilterAway s.ourIp ip = false := Bool.eq_false_iff.mpr hfilter
    apply iff_of_true _ hours
    have hlater : ∀ {u t : Stack} {window : Event}, u.trace = window :: s.trace → ReachedUdp u t →
        ReachedUdp s t := by
      intro u t window hu ht
      obtain ⟨new, index, length, htrace, hmem⟩ := ht
      exact ⟨new ++ [window], index, length,
        by rw [htrace, hu, List.append_assoc, List.singleton_append], List.mem_append_left _ hmem⟩
    apply wp_mono (handleUdp_reached _)
    · intro _ t ht
      exact hlater rfl ht
    · intro _ t ht
      exact hlater rfl ht
    · rw [Stack.write_packets, Function.update_self]
      exact h.datagram

/-- Sender and receiver agree on every destination in the sender's subnet but its directed broadcast
address, and on 255.255.255.255. The netmask and the subnet of the receiver do not matter. -/
theorem broadcast_agrees (sender receiver : Stack) (q p : PacketId) (ip : Ip) (protocol : UInt8)
    (hreceiver : receiver.ourIp ≠ 0) (hother : ip ≠ receiver.ourIp)
    (hip : ip &&& sender.ourNetmask = sender.ourIp &&& sender.ourNetmask ∨ ip = 0xFFFFFFFF)
    (hpacket : UdpPacketFor ip (receiver.packets p)) :
    (UsesBroadcast sender q ip protocol ↔ PassesOn receiver p) ↔
      (ip = 0xFFFFFFFF ∨ ip ≠ sender.ourIp &&& sender.ourNetmask ||| ~~~sender.ourNetmask) := by
  rw [usesBroadcast_iff, passesOn_iff hpacket, shouldFilterAway_iff hreceiver hother]
  by_cases hall : ip = 0xFFFFFFFF
  · rw [hall]
    simp [shouldBroadcast_all]
  · rw [shouldBroadcast_iff (hip.resolve_right hall)]
    simp [hall]

/-- A host with an address in 10.0.0.0/24, and a received IP packet. -/
def host (address : UInt32) (frame : List UInt8) : Stack :=
  let s := powerOn zeroApplication 0 fun _ => 0
  { s with
    ourIp := 0x0A000000 + address
    ourNetmask := 0xFFFFFF00
    packets := fun _ => { zeroPacket with
      data := memoryOf frame, index := 14, length := frame.length - 14 } }

/-- A datagram of two bytes for an address in 10.0.0.0/24. -/
def frameTo (address : UInt8) : List UInt8 :=
  [0xFF, 0xFF, 0xFF, 0xFF, 0xFF, 0xFF, 2, 0, 0, 0, 0, 1, 0x08, 0x00, 0x45, 0, 0, 30, 0, 0, 0, 0, 64, 17,
    0, 0, 10, 0, 0, 1, 10, 0, 0, address, 0, 7, 0, 7, 0, 10, 0, 0, 120, 120]

/-- A destination in the subnet that is neither host. -/
theorem broadcast_agrees_neighbour :
    UsesBroadcast (host 1 []) 0 0x0A000003 ipProtocolUdp ↔ PassesOn (host 2 (frameTo 3)) 0 := by
  have hpacket : UdpPacketFor 0x0A000003 ((host 2 (frameTo 3)).packets 0) :=
    ⟨by decide, by decide, by decide, by decide, by decide⟩
  apply (broadcast_agrees (host 1 []) (host 2 (frameTo 3)) 0 0 0x0A000003 ipProtocolUdp (by decide)
    (by decide) (by decide) hpacket).mpr
  decide

/-- What is sent to 10.0.0.255 is broadcast on the Ethernet, and no host takes it. -/
theorem directed_broadcast_filtered :
    UsesBroadcast (host 1 []) 0 0x0A0000FF ipProtocolUdp ∧ ¬ PassesOn (host 2 (frameTo 255)) 0 := by
  have hpacket : UdpPacketFor 0x0A0000FF ((host 2 (frameTo 255)).packets 0) :=
    ⟨by decide, by decide, by decide, by decide, by decide⟩
  rw [usesBroadcast_iff, passesOn_iff hpacket]
  decide

end MiniIp.Guarantees.BroadcastAgreement
