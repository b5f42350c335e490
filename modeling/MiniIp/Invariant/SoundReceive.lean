import MiniIp.Invariant.SoundUdp

/-!
# Receiving keeps the invariant

`macStripped`, `ipStripped` and `udpStripped` are what the handlers make of the
record of a packet, so that the conditions on a received frame can be stated of
the frame: which payload reaches a UDP queue, and which frames are pings that
the stack answers. A ping whose header-length nibble is below five leaves too
little room in front for the headers of the answer.
-/

set_option autoImplicit false

namespace MiniIp.Invariant

open MiniIp.Source MiniIp.Library.Counting MiniIp.Library.Wp

def macStripped (frame : NetworkPacket) : NetworkPacket :=
  { frame with length := frame.length - macHeaderSize, index := frame.index + macHeaderSize }

/-- After `handle_ip` has read the addresses and cut off the padding. -/
def ipAddressed (p : NetworkPacket) : NetworkPacket :=
  { p with
    sendersIp := readBe32 p.data (p.index + 12)
    targetIp := readBe32 p.data (p.index + 16)
    length := trimmedLength p }

def ipStripped (p : NetworkPacket) : NetworkPacket :=
  { ipAddressed p with
    index := p.index + ipHeaderLength p.data p.index
    length := trimmedLength p - ipHeaderLength p.data p.index }

def udpStripped (p : NetworkPacket) : NetworkPacket :=
  { p with
    index := p.index + udpHeaderSize
    length := p.length - udpHeaderSize
    sourcePort := readBe16 p.data p.index }

/-- `handle_ip` passes the packet on to the protocol. -/
def IpAccepts (ourIp : Ip) (protocol : UInt8) (p : NetworkPacket) : Prop :=
  verifyIpHeader p.data p.index (trimmedLength p) = true ∧
    shouldFilterAway ourIp (readBe32 p.data (p.index + 16)) = false ∧
    p.data (p.index + 9) = protocol

/-- The IP packet of a frame. -/
def CarriesIp (frame : NetworkPacket) : Prop :=
  readBe16 frame.data (frame.index + 12) = etherTypeIpv4

/-- What a frame leaves in a UDP queue, and the port of that queue. -/
def datagram (frame : NetworkPacket) : NetworkPacket := udpStripped (ipStripped (macStripped frame))

def datagramPort (frame : NetworkPacket) : Port :=
  let p := ipStripped (macStripped frame)
  readBe16 p.data (p.index + 2)

/-- The frame reaches `handle_udp`. -/
def CarriesUdp (ourIp : Ip) (frame : NetworkPacket) : Prop :=
  CarriesIp frame ∧ IpAccepts ourIp ipProtocolUdp (macStripped frame)

/-- Each handler finds more than its header. -/
structure LongEnough (frame : NetworkPacket) : Prop where
  mac : macHeaderSize < sizeT frame.length
  ip : ipHeaderSize < sizeT (macStripped frame).length
  udp : udpHeaderSize < sizeT (ipStripped (macStripped frame)).length

/-- The packet behind the IP header is a ping that `handle_icmp` answers. -/
def IsPing (p : NetworkPacket) : Prop :=
  icmpHeaderSize ≤ sizeT p.length ∧ p.data p.index = icmpTypePingRequest

/-- The frame is a ping that the stack answers, and its header-length nibble is below five. -/
def ShortHeaderPing (ourIp : Ip) (frame : NetworkPacket) : Prop :=
  CarriesIp frame ∧ IpAccepts ourIp ipProtocolIcmp (macStripped frame) ∧
    IsPing (ipStripped (macStripped frame)) ∧
    ipHeaderLength (macStripped frame).data (macStripped frame).index < ipHeaderSize

variable {W : Prop} {U : QueueContent} {limit most : ℕ}
  {held : List PacketId} {s : Stack} {p q : PacketId}

theorem sizeT_fits {room : Int} {content : NetworkPacket} (h : Fits room content)
    (hroom : 0 ≤ room) : sizeT content.length = content.length := by
  obtain ⟨hindex, hpositive, hend⟩ := h
  exact Int.emod_eq_of_lt hpositive (by omega)

/-- Taking a header off a packet that is longer than the header. -/
theorem Fits.pull {room size : Int} {content pulled : NetworkPacket} (h : Fits room content)
    (hsize : size ≤ content.length) (hindex : pulled.index = content.index + size)
    (hlength : pulled.length = content.length - size) : Fits (room + size) pulled := by
  obtain ⟨hi, hl, he⟩ := h
  exact ⟨by omega, by omega, by omega⟩

theorem Fits.weaken {room room' : Int} {content : NetworkPacket} (h : Fits room content)
    (hle : room' ≤ room) : Fits room' content :=
  ⟨hle.trans h.1, h.2⟩

/-- `handle_udp` queues the datagram or gives the packet back. -/
theorem handleUdp_sound (h : Sound W U limit (p :: held) s) (hf : W → Fits 0 (s.packets p))
    (hU : udpHeaderSize < sizeT (s.packets p).length →
      ∀ c, findConnection s.udp (readBe16 (s.packets p).data ((s.packets p).index + 2)) = some c →
      U c (readBe16 (s.packets p).data ((s.packets p).index + 2)) p (udpStripped (s.packets p))) :
    wp (handleUdp p) (fun _ t => Sound W U limit held t) (Stopped W U limit most) s := by
  unfold handleUdp
  simp only [wp_bind, wp_getPacket, wp_ite, wp_freeNetworkPacket]
  split
  · exact h.freed
  · next hlong =>
    simp only [wp_recordWindow, wp_modifyPacket, wp_get]
    have hlength : W → udpHeaderSize ≤ (s.packets p).length := by
      intro w
      rw [sizeT_fits (hf w) (by omega)] at hlong
      omega
    have hseen := (h.observe (.window .handleUdp (s.packets p).index (s.packets p).length
      udpHeaderSize) trivial fun w => (hf w).inBuffer (by omega) (hlength w)).write
        List.mem_cons_self (udpStripped (s.packets p))
    split
    · exact hseen.freed
    · next c hfind =>
      obtain ⟨hused, hport⟩ := findConnection_mem hfind
      apply udpQueuePacket_sound hseen
      · intro w
        rw [Stack.write_packets, Function.update_self]
        exact (Fits.pull (hf w) (hlength w) rfl rfl).weaken (by decide)
      · exact hused
      · rw [Stack.write_packets, Function.update_self]
        exact hport ▸ hU (not_le.mp hlong) c hfind

/-- `handle_icmp` answers in place, which needs room for the headers in front of the request. -/
theorem handleIcmp_sound (h : Sound W U limit (p :: held) s) (hf : W → Fits 0 (s.packets p))
    (hheld : held.length ≤ most) (hping : W → IsPing (s.packets p) → Fits 34 (s.packets p)) :
    wp (handleIcmp p) (fun _ t => Sound W U limit held t) (Stopped W U limit most) s := by
  unfold handleIcmp
  simp only [wp_bind, wp_getPacket, wp_ite, wp_freeNetworkPacket]
  split
  · exact h.freed
  · next hlong =>
    simp only [wp_recordWindow, wp_modifyPacket]
    have hseen := h.observe (.window .handleIcmp (s.packets p).index (s.packets p).length
      icmpHeaderSize) trivial fun w => by
        rw [sizeT_fits (hf w) (by omega)] at hlong
        exact (hf w).inBuffer (by omega) (by omega)
    split
    · next htype =>
      apply ipSend_sound (hseen.write List.mem_cons_self _) _ hheld
      intro w
      have hroom := hping w ⟨by omega, htype⟩
      simpa [Fits] using hroom
    · exact hseen.freed

theorem trimmedLength_bounds {content : NetworkPacket} (h : 0 ≤ content.length) :
    0 ≤ trimmedLength content ∧ trimmedLength content ≤ content.length := by
  unfold trimmedLength
  dsimp only
  split <;> omega

/-- A header that `verify_ip_header` accepts is shorter than the packet. -/
theorem ipStripped_fits {room : Int} {content : NetworkPacket} (h : Fits room content)
    (hroom : 0 ≤ room)
    (hverify : verifyIpHeader content.data content.index (trimmedLength content) = true) :
    Fits (room + ipHeaderLength content.data content.index) (ipStripped content) := by
  obtain ⟨hindex, hpositive, hend⟩ := h
  obtain ⟨hlow, hhigh⟩ := trimmedLength_bounds hpositive
  have hshorter : ipHeaderLength content.data content.index < sizeT (trimmedLength content) := by
    unfold verifyIpHeader at hverify
    split at hverify
    · cases hverify
    · split at hverify
      · cases hverify
      · split at hverify
        · cases hverify
        · next hlength => omega
  rw [sizeT, Int.emod_eq_of_lt hlow (by omega)] at hshorter
  refine ⟨?_, ?_, ?_⟩
  · show room + _ ≤ content.index + _
    omega
  · show 0 ≤ trimmedLength content - _
    omega
  · show content.index + _ + (trimmedLength content - _) ≤ 1024
    omega

/-- `handle_ip` passes the packet on with its header taken off, or gives it back. -/
theorem handleIp_sound (h : Sound W U limit (p :: held) s) (hf : W → Fits 14 (s.packets p))
    (hheld : held.length ≤ most)
    (hU : IpAccepts s.ourIp ipProtocolUdp (s.packets p) → ipHeaderSize < sizeT (s.packets p).length →
      udpHeaderSize < sizeT (ipStripped (s.packets p)).length → ∀ c, findConnection s.udp
        (readBe16 (ipStripped (s.packets p)).data ((ipStripped (s.packets p)).index + 2)) = some c →
      U c (readBe16 (ipStripped (s.packets p)).data ((ipStripped (s.packets p)).index + 2)) p
        (udpStripped (ipStripped (s.packets p))))
    (hping : W → IpAccepts s.ourIp ipProtocolIcmp (s.packets p) → IsPing (ipStripped (s.packets p)) →
      ipHeaderSize ≤ ipHeaderLength (s.packets p).data (s.packets p).index) :
    wp (handleIp p) (fun _ t => Sound W U limit held t) (Stopped W U limit most) s := by
  unfold handleIp
  simp only [wp_bind, wp_getPacket, wp_ite, wp_freeNetworkPacket]
  split
  · exact h.freed
  · next hlong =>
    have hseen := h.observe (.window .handleIp (s.packets p).index (s.packets p).length
      ipHeaderSize) trivial fun w => by
        rw [sizeT_fits (hf w) (by omega)] at hlong
        exact (hf w).inBuffer (by omega) (by omega)
    simp only [wp_recordWindow, wp_modifyPacket, wp_get, Stack.observe_packets,
      Stack.write_packets, Function.update_self]
    split
    · exact (hseen.write List.mem_cons_self _).freed
    · next hverify =>
      have hverified : verifyIpHeader (s.packets p).data (s.packets p).index
          (trimmedLength (s.packets p)) = true := by simpa using hverify
      have hstripped := (hseen.write List.mem_cons_self (ipAddressed (s.packets p))).write
        List.mem_cons_self (ipStripped (s.packets p))
      have hroom : W → Fits (14 + ipHeaderLength (s.packets p).data (s.packets p).index)
          (ipStripped (s.packets p)) := fun w => ipStripped_fits (hf w) (by omega) hverified
      have hheader : 0 ≤ ipHeaderLength (s.packets p).data (s.packets p).index := by
        unfold ipHeaderLength
        omega
      split
      · exact hstripped.freed
      · next hfilter =>
        have hpassed : shouldFilterAway s.ourIp
            (readBe32 (s.packets p).data ((s.packets p).index + 16)) = false := by
          simpa using hfilter
        split
        · next hprotocol =>
          apply handleUdp_sound hstripped
          · intro w
            rw [Stack.write_packets, Function.update_self]
            exact (hroom w).weaken (by omega)
          · rw [Stack.write_packets, Function.update_self]
            exact hU ⟨hverified, hpassed, hprotocol⟩ (not_le.mp hlong)
        · split
          · next hprotocol =>
            apply handleIcmp_sound hstripped _ hheld
            · intro w hrequest
              rw [Stack.write_packets, Function.update_self] at hrequest ⊢
              have hlength := hping w ⟨hverified, hpassed, hprotocol⟩ hrequest
              exact (hroom w).weaken (by simp only [ipHeaderSize] at hlength; omega)
            · intro w
              rw [Stack.write_packets, Function.update_self]
              exact (hroom w).weaken (by omega)
          · exact hstripped.freed

/-- `handle_mac` on the frame in a held packet. -/
theorem handleMac_sound (h : Sound W U limit (p :: held) s) (hf : W → Fits 0 (s.packets p))
    (hheld : held.length + 1 ≤ most)
    (hU : CarriesUdp s.ourIp (s.packets p) → LongEnough (s.packets p) →
      ∀ c, findConnection s.udp (datagramPort (s.packets p)) = some c →
      U c (datagramPort (s.packets p)) p (datagram (s.packets p)))
    (hping : W → ¬ ShortHeaderPing s.ourIp (s.packets p)) :
    wp (handleMac p) (fun _ t => Sound W U limit held t) (Stopped W U limit most) s := by
  unfold handleMac
  simp only [wp_bind, wp_getPacket, wp_ite, wp_freeNetworkPacket]
  split
  · exact h.freed
  · next hlong =>
    have hlength : W → macHeaderSize ≤ (s.packets p).length := by
      intro w
      rw [sizeT_fits (hf w) (by omega)] at hlong
      omega
    have hseen := (h.observe (.window .handleMac (s.packets p).index (s.packets p).length
      macHeaderSize) trivial fun w => (hf w).inBuffer (by omega) (hlength w)).write
        List.mem_cons_self (macStripped (s.packets p))
    have hroom : W → Fits 14 (macStripped (s.packets p)) := fun w =>
      Fits.pull (hf w) (hlength w) rfl rfl
    simp only [wp_recordWindow, wp_modifyPacket]
    split
    · apply handleArp_sound hseen _ hheld
      intro w
      rw [Stack.write_packets, Function.update_self]
      exact (hroom w).weaken (by omega)
    · split
      · next htype =>
        apply handleIp_sound hseen
        · intro w
          rw [Stack.write_packets, Function.update_self]
          exact hroom w
        · omega
        · rw [Stack.write_packets, Function.update_self]
          intro haccepts hip hudp
          exact hU ⟨htype, haccepts⟩ ⟨not_le.mp hlong, hip, hudp⟩
        · rw [Stack.write_packets, Function.update_self]
          intro w haccepts hrequest
          have hnot := hping w
          by_contra hshort
          exact hnot ⟨htype, haccepts, hrequest, by omega⟩
      · exact hseen.freed

/-- The frame that `gmac_receive` returns in this state. -/
def nextFrame (s : Stack) : Option NetworkPacket :=
  let descriptor := s.gmac.rxDescriptors s.gmac.rxIndex
  if descriptor.owner = .gmac ∨ descriptor.startOfFrame = false ∨ descriptor.endOfFrame = false then
    none
  else
    (s.gmac.rxPackets s.gmac.rxIndex).map fun packet => { s.packets packet with
      length := descriptor.length.val, index := 0, broadcast := descriptor.broadcastDetected }

/-- A packet in a receive slot may be written like a held one: it is in no queue. -/
theorem Owned.rx_not_queued {i : Fin 32} (h : Owned held s) (hslot : s.gmac.rxPackets i = some p) :
    (∀ e, p ∉ (s.arp.entries e).packetQueue) ∧ (∀ c, p ∉ (s.udp.connections c).packetQueue) ∧
      p ∉ s.freeNetworkPackets ∧ p ∉ held := by
  have hone := h p
  have hmem := member_le_sum (fun j => if s.gmac.rxPackets j = some p then 1 else 0) i
  simp only [hslot, if_true] at hmem
  simp only [occurrences, slots] at hone
  refine ⟨fun e hq => ?_, fun c hq => ?_, fun hfree => ?_, fun hheld => ?_⟩
  · have hle := member_le_sum (fun e => (s.arp.entries e).packetQueue.count p) e
    have hpos := List.count_pos_iff.mpr hq
    omega
  · have hle := member_le_sum (fun c => (s.udp.connections c).packetQueue.count p) c
    have hpos := List.count_pos_iff.mpr hq
    omega
  · have hpos := List.count_pos_iff.mpr hfree
    omega
  · have hpos := List.count_pos_iff.mpr hheld
    omega

theorem Sound.writeSlot {i : Fin 32} (h : Sound W U limit held s)
    (hslot : s.gmac.rxPackets i = some p) (content : NetworkPacket) :
    Sound W U limit held (s.write p content) := by
  obtain ⟨harp, hudp, _, _⟩ := h.owned.rx_not_queued hslot
  exact { h with
    udpContent := fun c q hq => by
      have hne : q ≠ p := fun heq => hudp c (heq ▸ hq)
      rw [Stack.write_packets, Function.update_of_ne hne]
      exact h.udpContent c q hq
    arpFits := fun w e q hq => by
      have hne : q ≠ p := fun heq => harp e (heq ▸ hq)
      rw [Stack.write_packets, Function.update_of_ne hne]
      exact h.arpFits w e q hq }

/-- The slot of the ring takes a fresh packet, and the received one comes into the caller's hands. -/
theorem Sound.exchanged {i : Fin 32} (h : Sound W U limit (q :: held) s)
    (hslot : s.gmac.rxPackets i = some p) :
    Sound W U limit (p :: held) (s.setRxPacket i q) := by
  have howned : Owned (p :: held) (s.setRxPacket i q) := by
    intro a
    have ha := h.owned a
    have hslots := slots_update_add s.gmac.rxPackets i (some q) a
    simp only [hslot, Option.some.injEq] at hslots
    simp only [occurrences, List.count_cons, beq_iff_eq, Stack.setRxPacket] at ha ⊢
    omega
  have hslots : ∀ j, ((s.setRxPacket i q).gmac.rxPackets j).isSome := by
    intro j
    by_cases hj : j = i
    · simp [hj]
    · simpa [Function.update_of_ne hj] using h.rxSlots j
  exact { h with owned := howned, rxSlots := hslots }

/-- `gmac_receive` returns the next frame in a packet that is then held. -/
theorem gmacReceive_sound (h : Sound W U limit held s) (hheld : held.length ≤ most) :
    wp gmacReceive
      (fun received t => Sound W U limit (received.toList ++ held) t ∧ t.ourIp = s.ourIp ∧
        t.udp = s.udp ∧
        ∀ p, received = some p → nextFrame s = some (t.packets p) ∧ Fits 0 (t.packets p))
      (Stopped W U limit most) s := by
  unfold gmacReceive
  simp only [wp_bind, wp_get, wp_ite, wp_pure, wp_modify]
  split
  · exact ⟨h, by simp⟩
  · next howner =>
    split
    · exact ⟨h.congr rfl, by simp⟩
    · next hmarks =>
      split
      · next hnone => simpa [hnone] using h.rxSlots s.gmac.rxIndex
      · next p hslot =>
        simp only [wp_bind, wp_modifyPacket]
        let descriptor := s.gmac.rxDescriptors s.gmac.rxIndex
        let frame : NetworkPacket := { s.packets p with
          length := descriptor.length.val, index := 0, broadcast := descriptor.broadcastDetected }
        have hwritten : Sound W U limit held (s.write p frame) := h.writeSlot hslot frame
        refine wp_next ((allocateNetworkPacket_delivers : Delivers True _).sends.run
          (allocateNetworkPacket_sound hwritten hheld)) fun next t hpost => ?_
        obtain ⟨⟨ht, _, _, hothers⟩, hframe⟩ := hpost
        have hslot' : t.gmac.rxPackets s.gmac.rxIndex = some p := by
          rw [hframe.rxPackets]
          exact hslot
        have hne : p ≠ next := by
          have hnot := (ht.owned.rx_not_queued hslot').2.2.2
          exact fun heq => hnot (heq ▸ List.mem_cons_self)
        have hcontent : t.packets p = frame := by
          rw [hothers p hne, Stack.write_packets, Function.update_self]
        refine ⟨(ht.exchanged hslot').congr rfl, hframe.ourIp, hframe.udp, fun q hq => ?_⟩
        obtain rfl : p = q := Option.some.inj hq
        have hmarks' : ¬ (descriptor.owner = .gmac ∨ descriptor.startOfFrame = false ∨
            descriptor.endOfFrame = false) := by tauto
        constructor
        · show nextFrame s = some (t.packets p)
          rw [hcontent, nextFrame, if_neg hmarks', hslot]
          rfl
        · show Fits 0 (t.packets p)
          rw [hcontent]
          have hshort := descriptor.length.isLt
          refine ⟨le_refl 0, ?_, ?_⟩
          · simp only [frame]
            omega
          · simp only [frame]
            omega

/-- The next frame brings nothing into a UDP queue that is not allowed there. -/
def Brings (U : QueueContent) (s : Stack) : Prop :=
  ∀ frame, nextFrame s = some frame → CarriesUdp s.ourIp frame →
    ∀ c, findConnection s.udp (datagramPort frame) = some c →
    ∀ p, U c (datagramPort frame) p (datagram frame)

/-- The frame the stack receives next leaves what is allowed in the UDP queues, and is no ping
that it cannot answer. -/
structure Acceptable (W : Prop) (U : QueueContent) (s : Stack) : Prop where
  content : Brings U s

  ping : W → ∀ frame, nextFrame s = some frame → ¬ ShortHeaderPing s.ourIp frame

/-- One round of the receive loop. -/
theorem receivePacket_sound (h : Sound W U limit held s) (hheld : held.length + 1 ≤ most)
    (haccept : Acceptable W U s) :
    wp receivePacket (fun _ t => Sound W U limit held t) (Stopped W U limit most) s := by
  unfold receivePacket
  rw [wp_bind]
  refine wp_next (gmacReceive_sound h (by omega)) fun received t hpost => ?_
  obtain ⟨ht, hip, hudp, hnext⟩ := hpost
  cases received with
  | none => exact ht
  | some p =>
    obtain ⟨hframe, hfits⟩ := hnext p rfl
    simp only [wp_bind, wp_pure]
    apply handleMac_sound ht (fun _ => hfits) hheld
    · rw [hip, hudp]
      intro hcarries _ c hfind
      exact haccept.content _ hframe hcarries c hfind p
    · rw [hip]
      intro w
      exact haccept.ping w _ hframe

/-- The hardware writes into a buffer of the receive ring. -/
theorem gmacReceiveDone_sound {slot : Fin 32} {status : RxStatus} {bytes : Memory}
    (h : Sound W U limit held s) :
    wp (gmacReceiveDone slot status bytes) (fun _ t => Sound W U limit held t)
      (Stopped W U limit most) s := by
  unfold gmacReceiveDone
  simp only [wp_bind, wp_get, wp_ite, wp_pure]
  split
  · split
    · exact h
    · next p hslot =>
      simp only [wp_bind, wp_modifyPacket, wp_modify]
      exact (h.writeSlot hslot _).congr rfl
  · exact h

end MiniIp.Invariant
