import MiniIp.Invariant.SoundReceive

/-!
# The way of a received packet

`handle_mac` and `handle_ip` hand a packet on or give it back. Which of the two, and what the packet is then, depends on
the packet and on the address of the host alone.
-/

set_option autoImplicit false

namespace MiniIp.Invariant

open MiniIp.Source MiniIp.Library.Wp

/-- `handle_ip` with the handlers of the protocols as parameters. -/
def handleIpWith (udp icmp : PacketId → Net Unit) (packet : PacketId) : Net Unit := do
  let p ← getPacket packet
  if sizeT p.length ≤ ipHeaderSize then
    freeNetworkPacket packet
  else
    recordWindow .handleIp packet ipHeaderSize
    let header := p.index
    modifyPacket packet fun p => { p with
      sendersIp := readBe32 p.data (header + 12)
      targetIp := readBe32 p.data (header + 16)
      length := trimmedLength p }
    if verifyIpHeader p.data header (trimmedLength p) = false then
      freeNetworkPacket packet
    else
      let headerLength := ipHeaderLength p.data header
      modifyPacket packet fun p => { p with
        index := p.index + headerLength, length := p.length - headerLength }
      if shouldFilterAway (← get).ourIp (readBe32 p.data (header + 16)) then
        freeNetworkPacket packet
      else if p.data (header + 9) = ipProtocolUdp then
        udp packet
      else if p.data (header + 9) = ipProtocolIcmp then
        icmp packet
      else
        freeNetworkPacket packet

theorem handleIpWith_own : handleIpWith handleUdp handleIcmp = handleIp := rfl

/-- The packet is in the pool again, and nothing is queued. -/
def GivenBack (packet : PacketId) (s t : Stack) : Prop :=
  t.freeNetworkPackets = packet :: s.freeNetworkPackets ∧ t.udp = s.udp

/-- The state in which `handle_mac` calls the next handler. -/
def macDelivered (s : Stack) (packet : PacketId) : Stack :=
  (s.observe (.window .handleMac (s.packets packet).index (s.packets packet).length macHeaderSize)).write packet
    (macStripped (s.packets packet))

/-- The state in which `handle_ip` calls the next handler. -/
def ipDelivered (s : Stack) (packet : PacketId) : Stack :=
  ((s.observe (.window .handleIp (s.packets packet).index (s.packets packet).length ipHeaderSize)).write packet
    (ipAddressed (s.packets packet))).write packet (ipStripped (s.packets packet))

variable {s : Stack} {p : NetworkPacket} {packet : PacketId} {udp icmp : PacketId → Net Unit} {memory : Memory}
  {header packetSize : Int} {Q : Unit → Stack → Prop} {E : Halt → Stack → Prop}

@[simp] theorem ipDelivered_packet : (ipDelivered s packet).packets packet = ipStripped (s.packets packet) := by
  simp [ipDelivered]

@[simp] theorem macDelivered_packet : (macDelivered s packet).packets packet = macStripped (s.packets packet) := by
  simp [macDelivered]

theorem verifyIpHeader_iff : verifyIpHeader memory header packetSize = true ↔
    memory header >>> 4 = 4 ∧ readBe16 memory (header + 6) &&& ipFlagMoreFragments = 0 ∧
      ipHeaderLength memory header < sizeT packetSize := by
  unfold verifyIpHeader
  split_ifs with hversion hflags hlength
  · simp [hversion]
  · simp [hflags]
  · have hnot : ¬ ipHeaderLength memory header < sizeT packetSize := by omega
    simp [hnot]
  · have hless : ipHeaderLength memory header < sizeT packetSize := by omega
    simp [not_not.mp hversion, not_not.mp hflags, hless]

/-- The packet that `gmac_receive` returns, and the state in which it returns. -/
def received (s : Stack) : Option (PacketId × Stack) :=
  match gmacReceive s with
  | .ok (some packet) t => some (packet, t)
  | _ => none

theorem received_eq_some {t : Stack} (h : received s = some (packet, t)) : gmacReceive s = .ok (some packet) t := by
  unfold received at h
  cases hreturned : gmacReceive s with
  | ok result u =>
    rw [hreturned] at h
    cases result with
    | none => cases h
    | some q =>
      obtain ⟨rfl, rfl⟩ := Prod.mk.inj (Option.some.inj h)
      rfl
  | error halt u =>
    rw [hreturned] at h
    cases h

theorem wp_handleMac_ip (hlong : macHeaderSize < sizeT (s.packets packet).length) (hip : CarriesIp (s.packets packet)) :
    wp (handleMac packet) Q E s ↔ wp (handleIp packet) Q E (macDelivered s packet) := by
  have hnot : ¬ sizeT (s.packets packet).length ≤ macHeaderSize := not_le.mpr hlong
  have hother : etherTypeIpv4 ≠ etherTypeArp := by decide
  have htype : readBe16 (s.packets packet).data ((s.packets packet).index + 12) = etherTypeIpv4 := hip
  unfold handleMac
  simp only [wp_bind, wp_getPacket, wp_ite, hnot, if_false, wp_recordWindow, wp_modifyPacket, Stack.observe_packets,
    htype, hother, if_true]
  rfl

theorem wp_handleIpWith_udp (hlong : ipHeaderSize < sizeT (s.packets packet).length)
    (haccepts : IpAccepts s.ourIp ipProtocolUdp (s.packets packet)) :
    wp (handleIpWith udp icmp packet) Q E s ↔ wp (udp packet) Q E (ipDelivered s packet) := by
  obtain ⟨hverify, hfilter, hprotocol⟩ := haccepts
  have hnot : ¬ sizeT (s.packets packet).length ≤ ipHeaderSize := not_le.mpr hlong
  unfold handleIpWith
  simp only [wp_bind, wp_getPacket, wp_ite, hnot, if_false, wp_recordWindow, wp_modifyPacket, wp_get,
    Stack.observe_packets, Stack.write_packets, Function.update_self, hverify, hfilter, hprotocol, Bool.true_eq_false,
    Bool.false_eq_true, if_true, Stack.write_ourIp, Stack.observe_ourIp]
  rfl

theorem wp_handleIpWith_icmp (hlong : ipHeaderSize < sizeT (s.packets packet).length)
    (haccepts : IpAccepts s.ourIp ipProtocolIcmp (s.packets packet)) :
    wp (handleIpWith udp icmp packet) Q E s ↔ wp (icmp packet) Q E (ipDelivered s packet) := by
  obtain ⟨hverify, hfilter, hprotocol⟩ := haccepts
  have hnot : ¬ sizeT (s.packets packet).length ≤ ipHeaderSize := not_le.mpr hlong
  have hother : ipProtocolIcmp ≠ ipProtocolUdp := by decide
  unfold handleIpWith
  simp only [wp_bind, wp_getPacket, wp_ite, hnot, if_false, wp_recordWindow, wp_modifyPacket, wp_get,
    Stack.observe_packets, Stack.write_packets, Function.update_self, hverify, hfilter, hprotocol, hother,
    Bool.true_eq_false, Bool.false_eq_true, if_true, Stack.write_ourIp, Stack.observe_ourIp]
  rfl

/-- What is not accepted for a protocol is given back. -/
theorem handleIpWith_refused (h : ¬ (ipHeaderSize < sizeT (s.packets packet).length ∧
      (IpAccepts s.ourIp ipProtocolUdp (s.packets packet) ∨ IpAccepts s.ourIp ipProtocolIcmp (s.packets packet)))) :
    wp (handleIpWith udp icmp packet) (fun _ t => GivenBack packet s t) (fun _ _ => False) s := by
  unfold handleIpWith
  simp only [wp_bind, wp_getPacket, wp_ite, wp_freeNetworkPacket]
  split
  · exact ⟨rfl, rfl⟩
  · next hshort =>
    simp only [wp_recordWindow, wp_modifyPacket, wp_get, Stack.observe_packets, Stack.write_packets,
      Function.update_self]
    split
    · exact ⟨rfl, rfl⟩
    · next hverify =>
      split
      · exact ⟨rfl, rfl⟩
      · next hfilter =>
        have hlong : ipHeaderSize < sizeT (s.packets packet).length := not_le.mp hshort
        have hverified := Bool.eq_true_of_not_eq_false hverify
        have hpassed := Bool.eq_false_of_not_eq_true hfilter
        split
        · next hudp => exact absurd ⟨hlong, .inl ⟨hverified, hpassed, hudp⟩⟩ h
        · split
          · next hicmp => exact absurd ⟨hlong, .inr ⟨hverified, hpassed, hicmp⟩⟩ h
          · exact ⟨rfl, rfl⟩

/-- A frame that MAC and IP accept reaches the handler of UDP. -/
theorem handleMac_udp (hmac : macHeaderSize < sizeT (s.packets packet).length)
    (hlong : ipHeaderSize < sizeT (macStripped (s.packets packet)).length) (hip : CarriesIp (s.packets packet))
    (haccepts : IpAccepts s.ourIp ipProtocolUdp (macStripped (s.packets packet))) :
    handleMac packet s = handleUdp packet (ipDelivered (macDelivered s packet) packet) := by
  rw [← macDelivered_packet] at hlong haccepts
  apply eq_of_wp
  intro Q E h
  rw [wp_handleMac_ip hmac hip, ← handleIpWith_own, wp_handleIpWith_udp hlong haccepts] at h
  exact h

/-- The state in which `handle_ip` gives a packet back whose header it does not accept. -/
def ipRefused (s : Stack) (packet : PacketId) : Stack :=
  (s.observe (.window .handleIp (s.packets packet).index (s.packets packet).length ipHeaderSize)).write packet
    (ipAddressed (s.packets packet))

theorem handleMac_refused (hmac : macHeaderSize < sizeT (s.packets packet).length)
    (hlong : ipHeaderSize < sizeT (macStripped (s.packets packet)).length) (hip : CarriesIp (s.packets packet))
    (hverify : verifyIpHeader (macStripped (s.packets packet)).data (macStripped (s.packets packet)).index
      (trimmedLength (macStripped (s.packets packet))) = false) :
    handleMac packet s = freeNetworkPacket packet (ipRefused (macDelivered s packet) packet) := by
  rw [← macDelivered_packet] at hlong hverify
  have hnot : ¬ sizeT ((macDelivered s packet).packets packet).length ≤ ipHeaderSize := not_le.mpr hlong
  apply eq_of_wp
  intro Q E h
  rw [wp_handleMac_ip hmac hip] at h
  unfold handleIp at h
  simp only [wp_bind, wp_getPacket, wp_ite, hnot, if_false, wp_recordWindow, wp_modifyPacket, hverify, if_true,
    Stack.observe_packets] at h
  exact h

/-- The message after `handle_icmp` has turned it into the answer. -/
def pingAnswered (p : NetworkPacket) : NetworkPacket := { p with data := writePingReply p.length p.index p.data }

/-- The state in which `handle_icmp` calls `ip_send`. -/
def icmpAnswered (s : Stack) (packet : PacketId) : Stack :=
  (s.observe (.window .handleIcmp (s.packets packet).index (s.packets packet).length icmpHeaderSize)).write packet
    (pingAnswered (s.packets packet))

theorem handleIcmp_ping (h : IsPing (s.packets packet)) :
    handleIcmp packet s = ipSend packet (s.packets packet).sendersIp ipProtocolIcmp (icmpAnswered s packet) := by
  obtain ⟨hlong, htype⟩ := h
  have hnot : ¬ sizeT (s.packets packet).length < icmpHeaderSize := not_lt.mpr hlong
  apply eq_of_wp
  intro Q E h
  unfold handleIcmp at h
  simp only [wp_bind, wp_getPacket, wp_ite, hnot, if_false, wp_recordWindow, wp_modifyPacket, htype, if_true,
    Stack.observe_packets] at h
  exact h

/-- A frame that MAC and IP accept reaches the handler of ICMP. -/
theorem handleMac_icmp (hmac : macHeaderSize < sizeT (s.packets packet).length)
    (hlong : ipHeaderSize < sizeT (macStripped (s.packets packet)).length) (hip : CarriesIp (s.packets packet))
    (haccepts : IpAccepts s.ourIp ipProtocolIcmp (macStripped (s.packets packet))) :
    handleMac packet s = handleIcmp packet (ipDelivered (macDelivered s packet) packet) := by
  rw [← macDelivered_packet] at hlong haccepts
  apply eq_of_wp
  intro Q E h
  rw [wp_handleMac_ip hmac hip, ← handleIpWith_own, wp_handleIpWith_icmp hlong haccepts] at h
  exact h

end MiniIp.Invariant
