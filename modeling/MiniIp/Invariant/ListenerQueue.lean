import MiniIp.Invariant.FrameBytes

/-!
# One queue of a listener

A port with room in its queue gets what arrives for it, and gives it back in order.
-/

set_option autoImplicit false

namespace MiniIp.Invariant

open MiniIp.Source MiniIp.Library.Wp

/-- The connection of a port, and the packets that wait in its queue. -/
structure Waiting (s : Stack) (port : Port) (c : UdpConnectionId) (queue : List PacketId) : Prop where
  found : findConnection s.udp port = some c
  counted : (s.udp.connections c).packetCount = queue.length
  queue : (s.udp.connections c).packetQueue = queue

/-- What a datagram changes on its way into a queue or out of it. -/
structure QueueOnly (c : UdpConnectionId) (s t : Stack) : Prop where
  free : t.freeNetworkPackets = s.freeNetworkPackets
  gmac : t.gmac = s.gmac
  application : t.application = s.application
  address : t.ourIp = s.ourIp ∧ t.ourNetmask = s.ourNetmask
  limit : (t.udp.connections c).maxPacketCount = (s.udp.connections c).maxPacketCount

variable {s t : Stack} {p : PacketId} {c : UdpConnectionId} {port sourcePort : Port} {ourIp ip : Ip} {queue : List PacketId}
  {payload : List UInt8}

theorem Waiting.kept (h : Waiting s port c queue) (hudp : t.udp = s.udp) : Waiting t port c queue := by
  constructor
  · rw [hudp]
    exact h.found
  · rw [hudp]
    exact h.counted
  · rw [hudp]
    exact h.queue

/-- An assignment to a connection that keeps its port. -/
theorem found_setConnection (h : findConnection s.udp port = some c) (v : UdpConnection)
    (hv : v.port = (s.udp.connections c).port) : findConnection (s.setConnection c v).udp port = some c := by
  have hports : ∀ c', ((s.setConnection c v).udp.connections c').port = (s.udp.connections c').port := by
    intro c'
    by_cases hcc : c' = c
    · simp [hcc, hv]
    · simp [Function.update_of_ne hcc]
  rw [← h]
  unfold findConnection
  simp only [hports]
  rfl

theorem handleUdp_waiting (h : Waiting s port c queue)
    (hroom : (s.udp.connections c).packetCount < (s.udp.connections c).maxPacketCount)
    (hlong : udpHeaderSize < sizeT (s.packets p).length)
    (hport : readBe16 (s.packets p).data ((s.packets p).index + 2) = port) :
    wp (handleUdp p)
      (fun _ t => Waiting t port c (queue ++ [p]) ∧ t.packets p = udpStripped (s.packets p) ∧ QueueOnly c s t)
      (fun _ _ => False) s := by
  have hnot : ¬ sizeT (s.packets p).length ≤ udpHeaderSize := not_le.mpr hlong
  have hkept : ¬ (s.udp.connections c).packetCount + 1 > (s.udp.connections c).maxPacketCount := by omega
  unfold handleUdp udpQueuePacket udpLimitQueue
  simp only [wp_bind, wp_getPacket, wp_ite, hnot, if_false, wp_recordWindow, wp_modifyPacket, wp_get, Stack.write_udp,
    Stack.observe_udp, hport, h.found, wp_modifyConnection, wp_emit, Stack.setConnection_udp_connections,
    Function.update_self, hkept, wp_pure]
  constructor
  · constructor
    · exact found_setConnection h.found { s.udp.connections c with
        packetQueue := (s.udp.connections c).packetQueue ++ [p]
        packetCount := (s.udp.connections c).packetCount + 1 } rfl
    · simp [h.counted]
    · simp [h.queue]
  · constructor
    · simp [udpStripped]
    · exact ⟨rfl, rfl, rfl, ⟨rfl, rfl⟩, by simp⟩

/-- The frame of a datagram ends in the queue of its port. -/
theorem handleMac_waiting (h : Waiting s port c queue)
    (hroom : (s.udp.connections c).packetCount < (s.udp.connections c).maxPacketCount) (hfits : Fits 0 (s.packets p))
    (hholds : HoldsDatagram sourcePort port ourIp ip payload (s.packets p)) (hpayload : 0 < payload.length)
    (htarget : s.ourIp = 0 ∨ s.ourIp = ip ∨ ip = 0xFFFFFFFF) :
    wp (handleMac p)
      (fun _ t => Waiting t port c (queue ++ [p]) ∧ t.packets p = datagram (s.packets p) ∧ QueueOnly c s t)
      (fun _ _ => False) s := by
  obtain ⟨⟨hip, haccepts⟩, hlong⟩ := hholds.accepted hfits hpayload htarget
  let delivered := ipDelivered (macDelivered s p) p
  have hwaiting : Waiting delivered port c queue := ⟨h.found, h.counted, h.queue⟩
  have hpacket : delivered.packets p = ipStripped (macStripped (s.packets p)) := by
    rw [ipDelivered_packet, macDelivered_packet]
  have hudp : udpHeaderSize < sizeT (delivered.packets p).length := by
    rw [hpacket]
    exact hlong.udp
  have hport : readBe16 (delivered.packets p).data ((delivered.packets p).index + 2) = port := by
    rw [hpacket]
    exact hholds.datagramPort
  have hhandled := handleUdp_waiting hwaiting hroom hudp hport
  rw [hpacket] at hhandled
  unfold wp
  rw [handleMac_udp hlong.mac hlong.ip hip haccepts]
  apply wp_next hhandled
  rintro _ t ⟨hqueued, hcontent, hkept⟩
  exact ⟨hqueued, hcontent, ⟨hkept.free, hkept.gmac, hkept.application, hkept.address, hkept.limit⟩⟩

theorem Waiting.head (h : Waiting s port c (p :: queue)) : queueHead s port = some (c, p) := by
  rw [queueHead, h.found, Option.bind_some, h.queue]
  rfl

theorem Waiting.dequeued (h : Waiting s port c (p :: queue)) : Waiting (dequeued s port c p) port c queue := by
  have hcounted := h.counted
  rw [List.length_cons] at hcounted
  constructor
  · exact found_setConnection h.found { s.udp.connections c with
      packetQueue := (s.udp.connections c).packetQueue.tail
      packetCount := (s.udp.connections c).packetCount - 1 } rfl
  · simp [Invariant.dequeued]
    omega
  · simp [Invariant.dequeued, h.queue]

/-- A call takes the first packet. -/
theorem udpReceiveZeroCopy_waiting (h : Waiting s port c (p :: queue)) :
    wp (udpReceiveZeroCopy port) (fun taken t => taken = some p ∧ Waiting t port c queue ∧ t.packets = s.packets)
      (fun _ _ => False) s := by
  have hcounted := h.counted
  rw [List.length_cons] at hcounted
  have hpositive : ¬ (s.udp.connections c).packetCount = 0 := by omega
  have htaken := h.dequeued
  rw [Invariant.dequeued, h.queue, List.tail_cons] at htaken
  unfold udpReceiveZeroCopy
  simp only [wp_bind, wp_get, h.found, wp_ite, hpositive, if_false, h.queue, wp_modifyConnection, wp_getPacket, wp_emit,
    wp_pure]
  exact ⟨trivial, htaken, rfl⟩

end MiniIp.Invariant
