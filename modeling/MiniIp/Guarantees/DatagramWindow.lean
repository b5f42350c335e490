import MiniIp.Invariant.DhcpServer
import MiniIp.Invariant.Reception
import MiniIp.Invariant.SoundRun

/-!
# The bytes of a queued datagram

`handle_ip` takes the shorter of what has been received and the total length of the IP header (ip.c:189), and
`handle_udp` takes what is behind its header of that. The length field of UDP is never read. What is queued is the window
between the UDP header and the end of the shorter one.

`verify_ip_header` does not refuse a header length below 20 bytes. This is a slip, and what follows from it is in
`HeaderWindow`. No least length of the header is claimed here.
-/

set_option autoImplicit false

namespace MiniIp.Guarantees.DatagramWindow

open MiniIp.Source MiniIp.Invariant MiniIp.Library.Counting MiniIp.Library.Runs MiniIp.Library.Wp

/-- The bytes behind the MAC header. -/
def receivedLength (frame : NetworkPacket) : Int := frame.length - macHeaderSize

/-- The length field of the IP header. -/
def totalLength (frame : NetworkPacket) : Int :=
  (readBe16 frame.data (frame.index + macHeaderSize + 2)).toNat

def headerLength (frame : NetworkPacket) : Int := ipHeaderLength frame.data (frame.index + macHeaderSize)

/-- The length field of the UDP header. -/
def udpLength (frame : NetworkPacket) : Int :=
  (readBe16 frame.data (frame.index + macHeaderSize + headerLength frame + 4)).toNat

/-- What the length fields of the frame say of the window of a queued packet. -/
structure LengthsAgree (frame q : NetworkPacket) : Prop where
  total : totalLength frame ≤ receivedLength frame
  header : ipHeaderSize ≤ headerLength frame ∧ headerLength frame ≤ totalLength frame
  udp : udpHeaderSize < udpLength frame ∧ udpLength frame ≤ totalLength frame - headerLength frame
  index : q.index = frame.index + macHeaderSize + headerLength frame + udpHeaderSize
  length : q.length = udpLength frame - udpHeaderSize

/-- The window that the code queues. -/
structure Window (frame q : NetworkPacket) : Prop where
  data : q.data = frame.data
  header : headerLength frame + udpHeaderSize < min (receivedLength frame) (totalLength frame)
  index : q.index = frame.index + macHeaderSize + headerLength frame + udpHeaderSize
  length : q.length = min (receivedLength frame) (totalLength frame) - headerLength frame - udpHeaderSize

variable {application : Application} {time : Time} {entropy : ℕ → UInt32} {s t : Stack} {packet : PacketId}
  {frame : NetworkPacket} {limit : ℕ} {held : List PacketId}

theorem trimmedLength_eq (frame : NetworkPacket) :
    trimmedLength (macStripped frame) = min (receivedLength frame) (totalLength frame) := by
  have hbranch : trimmedLength (macStripped frame) =
      if receivedLength frame < totalLength frame then receivedLength frame else totalLength frame := rfl
  rw [hbranch]
  split
  · next hshort => exact (min_eq_left (le_of_lt hshort)).symm
  · next hlong => exact (min_eq_right (not_lt.mp hlong)).symm

/-- A frame that every handler accepts leaves this window. -/
theorem datagram_window {ourIp : Ip} (hfits : Fits 0 frame) (hcarries : CarriesUdp ourIp frame)
    (hlong : LongEnough frame) : Window frame (datagram frame) := by
  have hroom := sizeT_fits hfits (le_refl 0)
  have hmac := hlong.mac
  rw [hroom] at hmac
  have hstripped : Fits macHeaderSize (macStripped frame) := by
    have hpulled : Fits (0 + macHeaderSize) (macStripped frame) := Fits.pull hfits (le_of_lt hmac) rfl rfl
    exact hpulled.weaken (by simp)
  have hip := ipStripped_fits hstripped (by decide) hcarries.2.1
  have hheader : 0 ≤ ipHeaderLength (macStripped frame).data (macStripped frame).index := by
    unfold ipHeaderLength
    omega
  have hudp := hlong.udp
  rw [sizeT_fits hip (add_nonneg (by decide) hheader)] at hudp
  have hlength : (ipStripped (macStripped frame)).length =
      min (receivedLength frame) (totalLength frame) - headerLength frame := by
    rw [← trimmedLength_eq]
    rfl
  rw [hlength] at hudp
  constructor
  · rfl
  · omega
  · rfl
  · rw [← hlength]
    rfl

/-- Once the next frame is in the caller's hands, the description of the queues may say anything of its packet. -/
theorem describe_held {U : QueueContent} (h : Sound False (fun _ _ _ _ => True) limit (packet :: held) s) :
    Sound False (fun c port q content => q = packet → U c port q content) limit (packet :: held) s :=
  { h with
    udpContent := by
      rintro c q hq rfl
      have hone := h.owned q
      have hcount := List.count_pos_iff.mpr hq
      have hle := member_le_sum (fun c => (s.udp.connections c).packetQueue.count q) c
      simp only [occurrences, List.count_cons_self] at hone
      omega
    arpFits := False.elim
    windows := False.elim }

/-- Where the handlers leave a received packet in a UDP queue, its window lies behind the headers and ends with the
shorter of the frame and the IP packet. -/
theorem queued_window (h : Reaches Op.exec (fun _ _ => True) (booted application time entropy) s)
    (hreceived : gmacReceive s = .ok (some packet) t) :
    wp (handleMac packet)
      (fun _ u => ∀ c, packet ∈ (u.udp.connections c).packetQueue → Window (t.packets packet) (u.packets packet))
      (fun _ _ => True) t := by
  obtain ⟨limit, held, hs⟩ := reaches_intact False h fun hfalse => hfalse.elim
  obtain ⟨ht, _, _, hnext⟩ := wp_ok (gmacReceive_sound hs (le_refl _)) hreceived
  obtain ⟨_, hfits⟩ := hnext packet rfl
  have hdescribed : Sound False (fun _ _ q content => q = packet → Window (t.packets packet) content) limit
    (packet :: held) t := describe_held ht
  apply wp_partial (handleMac_sound hdescribed False.elim (le_refl (held.length + 1)) _ False.elim)
  · intro _ u hu c hq
    exact hu.udpContent c packet hq rfl
  · intro hcarries hlong _ _ _
    exact datagram_window hfits hcarries hlong

/-- The IP packet claims to have 1000 bytes, of which 46 have come, and the UDP datagram 3. -/
def contradictoryFrame : List UInt8 :=
  [0xFF, 0xFF, 0xFF, 0xFF, 0xFF, 0xFF, 2, 0, 0, 0, 0, 1, 0x08, 0x00,
    0x45, 0, 0x03, 0xE8, 0, 0, 0, 0, 64, 17, 0, 0, 10, 0, 0, 2, 10, 0, 0, 1,
    0, 67, 0, 68, 0, 3, 0, 0, 1, 2, 3, 4]

/-- The frame that has been received ends in the client's queue. -/
def endsInQueue (frame : NetworkPacket → Bool) (s : Stack) : Bool :=
  (received s).any fun result => frame (result.2.packets result.1) &&
    returnsWith (fun u => (queueHead u dhcpClientPort).any fun head => head.2 = result.1) (handleMac result.1) result.2

theorem queued_of_runs {check : NetworkPacket → Bool} {bytes : List UInt8}
    (hrun : runs Op.exec (fun _ _ => true) (endsInQueue check) [.dhcpStart, .deliver 0 60 bytes]
      (booted zeroApplication 0 fun _ => 0) = true) :
    ∃ s packet t u c, Reaches Op.exec (fun _ _ => True) (booted zeroApplication 0 fun _ => 0) s ∧
      gmacReceive s = .ok (some packet) t ∧ check (t.packets packet) = true ∧ handleMac packet t = .ok () u ∧
      packet ∈ (u.udp.connections c).packetQueue := by
  obtain ⟨s, hreach, hcheck⟩ := reaches_of_runs (fun _ _ => True) .start (fun _ _ _ _ => trivial) hrun
  unfold endsInQueue at hcheck
  rw [Option.any_eq_true] at hcheck
  obtain ⟨⟨packet, t⟩, hreceived, hends⟩ := hcheck
  rw [Bool.and_eq_true] at hends
  obtain ⟨hframe, hreturns⟩ := hends
  obtain ⟨_, u, hu, hqueued⟩ := returns_of_wp (wp_of_returnsWith hreturns)
  rw [Option.any_eq_true] at hqueued
  obtain ⟨⟨c, q⟩, hhead, hq⟩ := hqueued
  obtain rfl : q = packet := of_decide_eq_true hq
  obtain ⟨_, _, hqueue⟩ := queueHead_some hhead
  have hmem : q ∈ (u.udp.connections c).packetQueue := by
    rw [hqueue]
    exact List.mem_cons_self
  exact ⟨s, q, t, u, c, hreach, received_eq_some hreceived, hframe, hu, hmem⟩

/-- A frame with a datagram of 16 bytes. -/
theorem queued_window_sixteen :
    ∃ s packet t u c, gmacReceive s = .ok (some packet) t ∧ handleMac packet t = .ok () u ∧
      packet ∈ (u.udp.connections c).packetQueue ∧ Window (t.packets packet) (u.packets packet) := by
  have hrun : runs Op.exec (fun _ _ => true) (endsInQueue fun _ => true)
      [.dhcpStart, .deliver 0 60 (udpFrame dhcpServerPort dhcpClientPort (List.replicate 16 7))]
      (booted zeroApplication 0 fun _ => 0) = true := by
    decide +kernel
  obtain ⟨s, packet, t, u, c, hreach, hreceived, _, hu, hq⟩ := queued_of_runs hrun
  exact ⟨s, packet, t, u, c, hreceived, hu, hq, wp_ok (queued_window hreach hreceived) hu c hq⟩

/-- The frame is queued, though it has been cut off and its UDP length has no room for a byte. -/
theorem contradictory_queued :
    ∃ s packet t u c, Reaches Op.exec (fun _ _ => True) (booted zeroApplication 0 fun _ => 0) s ∧
      gmacReceive s = .ok (some packet) t ∧ handleMac packet t = .ok () u ∧
      packet ∈ (u.udp.connections c).packetQueue ∧ receivedLength (t.packets packet) < totalLength (t.packets packet) ∧
      udpLength (t.packets packet) < udpHeaderSize ∧ ¬ LengthsAgree (t.packets packet) (u.packets packet) := by
  have hrun : runs Op.exec (fun _ _ => true)
      (endsInQueue fun frame => receivedLength frame < totalLength frame ∧ udpLength frame < udpHeaderSize)
      [.dhcpStart, .deliver 0 60 contradictoryFrame] (booted zeroApplication 0 fun _ => 0) = true := by
    decide +kernel
  obtain ⟨s, packet, t, u, c, hreach, hreceived, hframe, hu, hq⟩ := queued_of_runs hrun
  obtain ⟨htotal, hudp⟩ := of_decide_eq_true hframe
  refine ⟨s, packet, t, u, c, hreach, hreceived, hu, hq, htotal, hudp, ?_⟩
  intro hagree
  have hle := hagree.total
  omega

end MiniIp.Guarantees.DatagramWindow
