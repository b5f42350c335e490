import MiniIp.Invariant.FrameBytes
import MiniIp.Invariant.ListenerQueue
import MiniIp.Invariant.SoundRun

/-!
# A datagram goes from one stack to another

The frame that `udp_send` hands to `gmac_send`, at once or after its target has been resolved, is taken apart by the
handlers of a second stack. There `udp_receive` returns the payload, once what has waited before it is taken.
-/

set_option autoImplicit false

namespace MiniIp.Guarantees.UdpRoundTrip

open MiniIp.Source MiniIp.Invariant MiniIp.Library.Runs MiniIp.Library.Wp

/-- Calls of `udp_receive` with buffers of these sizes. -/
def takeAll (port : Port) : List Int → Net Unit
  | [] => pure ()
  | size :: rest => do
    let _ ← udpReceive size port
    takeAll port rest

/-- What both calls return for the port is the datagram. -/
structure Returned (sourcePort destPort : Port) (ourIp : Ip) (payload : List UInt8) (s : Stack) : Prop where
  packet : wp (udpReceiveZeroCopy destPort)
    (fun taken t => ∃ p, taken = some p ∧ (t.packets p).payload = payload ∧
      (t.packets p).sourcePort = sourcePort ∧ (t.packets p).sendersIp = ourIp)
    (fun _ _ => False) s
  bytes : ∀ size : Int, payload.length ≤ size →
    wp (udpReceive size destPort) (fun bytes _ => bytes = payload) (fun _ _ => False) s

variable {application application' : Application} {time time' : Time} {entropy entropy' : ℕ → UInt32}
  {s r t : Stack} {p q : PacketId} {c : UdpConnectionId} {port sourcePort destPort : Port} {ip : Ip}
  {queue rest : List PacketId} {data : ℕ → UInt8} {size : ℕ} {frame padding : List UInt8} {later : List Op}

theorem sent_frame (honce : occurrences s p = 1) (hpool : s.freeNetworkPackets = p :: rest) (hmost : size ≤ 880)
    (hsent : fateIn p (udpSend data size sourcePort destPort ip >>= fun _ => execAll later) s = .sent frame) :
    DatagramFrame sourcePort destPort s.ourIp ip ((List.range size).map data) frame := by
  let bytes := (List.range size).map data
  let filled : NetworkPacket → NetworkPacket := fun k => { k with
    data := writeBytes bytes k.index k.data, length := size }
  have hcall : udpSend data size sourcePort destPort ip = (do
      let packet ← allocateNetworkPacket
      modifyPacket packet filled
      udpSendZeroCopy packet sourcePort destPort ip) := by
    have hlimit : (if (size : Int) < networkPacketUserSize then (size : Int) else networkPacketUserSize) = size := by
      rw [networkPacketUserSize]
      split <;> omega
    unfold udpSend
    simp only [hlimit, Int.toNat_natCast]
    rfl
  have hlength : (size : Int) ≤ bytes.length := by
    simp [bytes]
  rw [hcall] at hsent
  have hsame := (filled_builds hpool filled sourcePort destPort ip).same honce hpool
    (filled_same bytes hlength (s.packets p) (s.packets p)) later
  obtain ⟨mac, ourMac, rfl⟩ := hsame.2 frame hsent
  have hpayload : (filled (emptied (s.packets p))).payload = bytes := by
    have hread := readBytes_writeBytes bytes (emptied (s.packets p)).index (emptied (s.packets p)).data
    have hsize : bytes.length = size := by simp [bytes]
    rw [hsize] at hread
    exact hread
  have hfits : (filled (emptied (s.packets p))).length ≤ 880 := by
    show (size : Int) ≤ 880
    omega
  have hframe := datagramFrame (k := filled (emptied (s.packets p))) mac ourMac sourcePort destPort s.ourIp ip
    (Int.natCast_nonneg size) hfits
  rwa [hpayload] at hframe

theorem udpReceive_waiting (h : Waiting s port c (p :: queue)) (size : Int) :
    wp (udpReceive size port)
      (fun bytes t => ((s.packets p).length ≤ size → bytes = (s.packets p).payload) ∧ Waiting t port c queue ∧
        t.packets = s.packets)
      (fun _ _ => False) s := by
  unfold udpReceive
  rw [wp_bind]
  apply wp_next (udpReceiveZeroCopy_waiting h)
  rintro _ t ⟨rfl, hwaiting, hpackets⟩
  simp only [wp_bind, wp_getPacket, wp_freeNetworkPacket, wp_pure, hpackets]
  refine ⟨?_, ⟨hwaiting.found, hwaiting.counted, hwaiting.queue⟩, hpackets⟩
  intro hlarge
  rw [if_neg (by omega)]
  rfl

/-- What waits in front is taken first. -/
theorem takeAll_waiting {sizes : List Int} (h : Waiting s port c (queue ++ [p])) (hsizes : sizes.length = queue.length) :
    wp (takeAll port sizes) (fun _ t => Waiting t port c [p] ∧ t.packets = s.packets) (fun _ _ => False) s := by
  induction sizes generalizing s queue with
  | nil =>
    obtain rfl := List.eq_nil_of_length_eq_zero hsizes.symm
    exact ⟨h, rfl⟩
  | cons size sizes ih =>
    cases queue with
    | nil => simp at hsizes
    | cons q queue =>
      simp only [List.length_cons, Nat.add_right_cancel_iff] at hsizes
      rw [takeAll, wp_bind]
      apply wp_next (udpReceive_waiting h size)
      rintro _ t ⟨_, hwaiting, hpackets⟩
      rw [← hpackets]
      exact ih hwaiting hsizes

theorem returned_of_waiting {ourIp : Ip} {payload : List UInt8} (h : Waiting s destPort c [p])
    (hpayload : (s.packets p).payload = payload) (hport : (s.packets p).sourcePort = sourcePort)
    (hsender : (s.packets p).sendersIp = ourIp) (hlength : (s.packets p).length = payload.length) :
    Returned sourcePort destPort ourIp payload s := by
  constructor
  · apply wp_next (udpReceiveZeroCopy_waiting h)
    rintro _ t ⟨rfl, _, hpackets⟩
    rw [hpackets]
    exact ⟨p, rfl, hpayload, hport, hsender⟩
  · intro size hlarge
    apply wp_next (udpReceive_waiting h size)
    rintro bytes t ⟨hbytes, _⟩
    rw [← hpayload]
    apply hbytes
    omega

/-- A datagram of 1 to 880 bytes that a stack sends comes out of another stack that listens on its port, whatever
padding the frame has got. -/
theorem udp_round_trip (hsender : Reaches Op.exec (fun _ _ => True) (booted application time entropy) s)
    (hpool : s.freeNetworkPackets = p :: rest) (hsize : 1 ≤ size) (hmost : size ≤ 880)
    (hsent : fateIn p (udpSend data size sourcePort destPort ip >>= fun _ => execAll later) s = .sent frame)
    (hreceiver : Reaches Op.exec (fun _ _ => True) (booted application' time' entropy') r)
    (hreceived : gmacReceive r = .ok (some q) t) (hframe : (t.packets q).payload = frame ++ padding)
    (htarget : t.ourIp = 0 ∨ t.ourIp = ip ∨ ip = 0xFFFFFFFF) (hlistens : findConnection t.udp destPort = some c)
    (hroom : (t.udp.connections c).packetCount < (t.udp.connections c).maxPacketCount) (sizes : List Int)
    (hsizes : sizes.length = (t.udp.connections c).packetQueue.length) :
    wp (handleMac q >>= fun _ => takeAll destPort sizes)
      (fun _ u => Returned sourcePort destPort s.ourIp ((List.range size).map data) u) (fun _ _ => False) t := by
  obtain ⟨limit, held, hs⟩ := reaches_intact False hsender fun hfalse => hfalse.elim
  obtain ⟨limit', held', hr⟩ := reaches_intact False hreceiver fun hfalse => hfalse.elim
  obtain ⟨ht, _, _, hnext⟩ := wp_ok (gmacReceive_sound hr (le_refl _)) hreceived
  obtain ⟨_, hfits⟩ := hnext q rfl
  have hholds := holdsDatagram (sent_frame (hs.owned.pool_once hpool) hpool hmost hsent) hframe
  have hpayload : ((List.range size).map data).length = size := by simp
  have hwaiting : Waiting t destPort c (t.udp.connections c).packetQueue :=
    ⟨hlistens, ht.udp.counted c (findConnection_mem hlistens).1, rfl⟩
  rw [wp_bind]
  apply wp_next (handleMac_waiting hwaiting hroom hfits hholds (by omega) htarget)
  rintro _ u ⟨hqueued, hcontent, _⟩
  apply wp_next (takeAll_waiting hqueued hsizes)
  rintro _ v ⟨hlast, hpackets⟩
  obtain ⟨hbytes, hsourcePort, hsendersIp⟩ := hholds.datagram
  have hdatagram : v.packets q = datagram (t.packets q) := by
    rw [hpackets, hcontent]
  have hlength : (datagram (t.packets q)).length = ((List.range size).map data).length := by
    have hstripped := hholds.stripped.2
    show (ipStripped (macStripped (t.packets q))).length - 8 = _
    omega
  rw [← hdatagram] at hbytes hsourcePort hsendersIp hlength
  exact returned_of_waiting hlast hbytes hsourcePort hsendersIp hlength

def threeBytes (i : ℕ) : UInt8 := [97, 98, 99].getD i 0

/-- The frame that 10.0.0.1 broadcasts with them, from port 5 to port 7. -/
def threeBytesFrame : List UInt8 :=
  [0xFF, 0xFF, 0xFF, 0xFF, 0xFF, 0xFF, 0, 0, 0, 0, 0, 0, 0x08, 0x00,
    0x45, 0, 0, 31, 0, 0, 0x40, 0, 0xFF, 17, 113, 205, 10, 0, 0, 1, 0xFF, 0xFF, 0xFF, 0xFF,
    0, 5, 0, 7, 0, 11, 49, 105, 97, 98, 99]

def sendsThreeBytes (s : Stack) : Bool :=
  s.freeNetworkPackets.head?.any fun p => s.ourIp = 0x0A000001 ∧
    fateIn p (udpSend threeBytes 3 5 7 0xFFFFFFFF >>= fun _ => execAll []) s = .sent threeBytesFrame

/-- The frame has been received behind another datagram for the port, and there is room in the queue. -/
def hearsThreeBytes (r : Stack) : Bool :=
  (received r).any fun result => (findConnection result.2.udp 7).any fun c =>
    (result.2.packets result.1).payload = threeBytesFrame ++ List.replicate 15 0 ∧ result.2.ourIp = 0 ∧
      (result.2.udp.connections c).packetCount < (result.2.udp.connections c).maxPacketCount ∧
      (result.2.udp.connections c).packetQueue.length = 1

theorem udp_round_trip_three :
    ∃ s p r q t, fateIn p (udpSend threeBytes 3 5 7 0xFFFFFFFF >>= fun _ => execAll []) s = .sent threeBytesFrame ∧
      gmacReceive r = .ok (some q) t ∧ (t.packets q).payload = threeBytesFrame ++ List.replicate 15 0 ∧
      wp (handleMac q >>= fun _ => takeAll 7 [2]) (fun _ u => Returned 5 7 0x0A000001 [97, 98, 99] u)
        (fun _ _ => False) t := by
  have hsends : runs Op.exec (fun _ _ => true) sendsThreeBytes [.setOurIp 0x0A000001]
      (booted zeroApplication 0 fun _ => 0) = true := by
    decide +kernel
  have hhears : runs Op.exec (fun _ _ => true) hearsThreeBytes
      [.udpListen 7 2, .deliverUdp 0 6 7 [1, 2], .receive, .deliver 1 60 threeBytesFrame]
      (booted zeroApplication 0 fun _ => 0) = true := by
    decide +kernel
  obtain ⟨s, hsender, hcheck⟩ := reaches_of_runs (fun _ _ => True) .start (fun _ _ _ _ => trivial) hsends
  obtain ⟨r, hreceiver, hcheck'⟩ := reaches_of_runs (fun _ _ => True) .start (fun _ _ _ _ => trivial) hhears
  unfold sendsThreeBytes at hcheck
  unfold hearsThreeBytes at hcheck'
  rw [Option.any_eq_true] at hcheck hcheck'
  obtain ⟨p, hhead, hsent⟩ := hcheck
  obtain ⟨hourIp, hsent⟩ := of_decide_eq_true hsent
  obtain ⟨⟨q, t⟩, hreceived, hfound⟩ := hcheck'
  rw [Option.any_eq_true] at hfound
  obtain ⟨c, hlistens, hready⟩ := hfound
  obtain ⟨hframe, htarget, hroom, hqueue⟩ := of_decide_eq_true hready
  have hpool := (List.cons_head?_tail hhead).symm
  have htrip := udp_round_trip hsender hpool (by decide) (by decide) hsent hreceiver (received_eq_some hreceived) hframe
    (.inl htarget) hlistens hroom [2] hqueue.symm
  rw [hourIp] at htrip
  exact ⟨s, p, r, q, t, hsent, received_eq_some hreceived, hframe, htrip⟩

end MiniIp.Guarantees.UdpRoundTrip
