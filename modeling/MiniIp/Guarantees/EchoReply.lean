import MiniIp.Guarantees.AddressResolution
import MiniIp.Guarantees.Fragments
import MiniIp.Invariant.Building
import MiniIp.Invariant.Checksum
import MiniIp.Invariant.SoundRun

/-!
# Answers to pings

`handle_icmp` answers in the buffer of the request: it writes the type, the code and the checksum over the message
where it lies, and `ip_send` puts a new header of 20 bytes in front, over the end of the old one. The answer is
handed over in the same call, or waits for the MAC address of its target.

`verify_ip_header` (ip.c:12, 150) tests the reserved bit of the flags for the one of more fragments. A ping with this
bit set is no fragment, and is freed without an answer.
-/

set_option autoImplicit false

namespace MiniIp.Guarantees.EchoReply

open MiniIp.Source MiniIp.Invariant MiniIp.Guarantees.Fragments MiniIp.Library.Runs MiniIp.Library.Wp
  MiniIp.Library.OnesComplement MiniIp.Library.TwoRuns

/-- The ICMP message of a received frame. The header with its options is in front of it, the padding behind it. -/
def message (frame : NetworkPacket) : NetworkPacket := ipStripped (macStripped frame)

/-- An echo request in an IP packet that is not a fragment and is meant for this host. -/
structure EchoRequest (ourIp : Ip) (frame : NetworkPacket) : Prop where
  ip : CarriesIp frame
  version : frame.data (frame.index + macHeaderSize) >>> 4 = 4
  whole : ¬ IsFragment (macStripped frame)
  header : ipHeaderSize ≤ ipHeaderLength frame.data (frame.index + macHeaderSize)
  target : shouldFilterAway ourIp (readBe32 frame.data (frame.index + macHeaderSize + 16)) = false
  protocol : frame.data (frame.index + macHeaderSize + 9) = ipProtocolIcmp
  length : icmpHeaderSize ≤ (message frame).length
  type : frame.data (message frame).index = icmpTypePingRequest

/-- The frame answers the request of the sender, of which the bytes of the message are given. -/
structure ReplyTo (ourIp sender : Ip) (request frame : List UInt8) : Prop where
  length : frame.length = 34 + request.length
  header : ∃ length checksum : UInt16, length.toNat = 20 + request.length ∧
    (frame.drop 14).take 20 = ipHeaderBytes length checksum ipProtocolIcmp ourIp sender
  headerSum : onesSum ((frame.drop 14).take 20) = 0xFFFF
  message : ∃ checksum : UInt16,
    frame.drop 34 = [icmpTypePingReply, 0] ++ be16Bytes checksum ++ request.drop 4
  messageSum : onesSum (frame.drop 34) = 0xFFFF

/-- The target has a MAC address already, or needs none. -/
def Known (s : Stack) (ip : Ip) : Prop :=
  shouldBroadcast s.ourNetmask ip = true ∨
    ∃ entry, (s.arp.usedEntries.find? fun a => (s.arp.entries a).ip = ip) = some entry ∧
      (s.arp.entries entry).containValidMapping = true

variable {application : Application} {time : Time} {entropy : ℕ → UInt32} {s t : Stack} {packet : PacketId}
  {frame : NetworkPacket} {ourIp : Ip} {memory : Memory} {pointer : Int} {size : ℕ}

theorem readBytes_pingReply (hsize : 8 ≤ size) :
    ∃ checksum : UInt16, readBytes (writePingReply size pointer memory) pointer size =
      [icmpTypePingReply, 0] ++ be16Bytes checksum ++ (readBytes memory pointer size).drop 4 := by
  have hsplit : size = 4 + (size - 4) := by omega
  have hback : readBytes (writePingReply size pointer memory) (pointer + (4 : ℕ)) (size - 4) =
      readBytes memory (pointer + (4 : ℕ)) (size - 4) := by
    apply readBytes_congr
    intro x hle _
    simp (disch := omega) only [writePingReply, writeBe16_other, writeByte_other]
  have hfront : ∃ checksum : UInt16, readBytes (writePingReply size pointer memory) pointer 4 =
      [icmpTypePingReply, 0] ++ be16Bytes checksum := by
    unfold writePingReply
    dsimp only
    generalize computeIcmpChecksum _ _ _ = checksum
    refine ⟨checksum, ?_⟩
    simp [readBytes, be16Bytes, writeBe16, writeByte, Function.update_apply, Int.add_assoc]
  obtain ⟨checksum, hbytes⟩ := hfront
  refine ⟨checksum, ?_⟩
  rw [drop_readBytes, ← hback, ← hbytes, ← readBytes_add, ← hsplit]

theorem onesSum_pingReply (hsize : 8 ≤ size) (hroom : size ≤ 1024) :
    onesSum (readBytes (writePingReply size pointer memory) pointer size) = 0xFFFF := by
  have heven : 2 % 2 = 0 := rfl
  unfold writePingReply computeIcmpChecksum
  dsimp only
  rw [Int.toNat_natCast]
  apply onesSum_checksum hroom heven (by omega)
  exact readBe16_writeBe16 0 _ _

/-- The message of a frame that has been received lies in its buffer. -/
theorem message_bounds (hfits : Fits 0 frame) (hrequest : EchoRequest ourIp frame) :
    8 ≤ (message frame).length ∧ (message frame).length ≤ 990 ∧ macHeaderSize < sizeT frame.length ∧
      ipHeaderSize < sizeT (macStripped frame).length ∧ icmpHeaderSize ≤ sizeT (message frame).length ∧
      ipHeaderLength frame.data (frame.index + macHeaderSize) < sizeT (trimmedLength (macStripped frame)) := by
  obtain ⟨hindex, hpositive, hend⟩ := hfits
  have htrimmed : trimmedLength (macStripped frame) ≤ frame.length - 14 := by
    have hlength : (macStripped frame).length = frame.length - 14 := rfl
    unfold trimmedLength
    dsimp only
    split <;> omega
  have hheader := hrequest.header
  have hlength := hrequest.length
  have hmessage : (message frame).length = trimmedLength (macStripped frame) -
      ipHeaderLength frame.data (frame.index + macHeaderSize) := rfl
  rw [hmessage] at hlength ⊢
  simp only [icmpHeaderSize, ipHeaderSize] at hlength hheader ⊢
  have hsize : ∀ n : Int, 0 ≤ n → n ≤ 1024 → sizeT n = n := fun n hn hle => Int.emod_eq_of_lt hn (by omega)
  have hstripped : (macStripped frame).length = frame.length - 14 := rfl
  rw [hsize frame.length (by omega) (by omega), hsize (macStripped frame).length (by omega) (by omega),
    hsize _ (by omega) (by omega), hsize (trimmedLength _) (by omega) (by omega), hstripped]
  have hmac : macHeaderSize = 14 := rfl
  omega

/-- The bytes that the code makes of the request are its reply. -/
theorem answer_frame (hfits : Fits 0 frame) (hrequest : EchoRequest ourIp frame) (mac ourMac : Mac) :
    ReplyTo ourIp (message frame).sendersIp (message frame).payload
      (macFramed mac ourMac etherTypeIpv4
        (ipFramed ipProtocolIcmp ourIp (message frame).sendersIp (pingAnswered (message frame)))).payload := by
  obtain ⟨hlow, hhigh, _⟩ := message_bounds hfits hrequest
  let built := ipFramed ipProtocolIcmp ourIp (message frame).sendersIp (pingAnswered (message frame))
  have hsize : ((message frame).length.toNat : Int) = (message frame).length := by omega
  have hbuilt : (macFramed mac ourMac etherTypeIpv4 built).payload.drop 14 = built.payload := by
    apply macFramed_payload
    show 0 ≤ (message frame).length + 20
    omega
  have hmessage : (macFramed mac ourMac etherTypeIpv4 built).payload.drop 34 = (pingAnswered (message frame)).payload := by
    have hbody : built.payload.drop 20 = (pingAnswered (message frame)).payload := by
      apply ipFramed_payload
      show 0 ≤ (message frame).length
      omega
    rw [← hbody, ← hbuilt, List.drop_drop]
  have hanswer : (pingAnswered (message frame)).payload = readBytes (writePingReply (message frame).length.toNat (message frame).index
      frame.data) (message frame).index (message frame).length.toNat := by
    rw [hsize]
    rfl
  have hheader : ((macFramed mac ourMac etherTypeIpv4 built).payload.drop 14).take 20 =
      readBytes (writeIpHeader (UInt16.ofInt ((message frame).length + ipHeaderSize)) ipProtocolIcmp ourIp
        (message frame).sendersIp ((message frame).index - ipHeaderSize) (pingAnswered (message frame)).data)
        ((message frame).index - ipHeaderSize) 20 := by
    have hlong : 20 ≤ ((message frame).length + ipHeaderSize).toNat := by
      rw [ipHeaderSize]
      omega
    rw [hbuilt]
    exact take_readBytes _ _ hlong
  constructor
  · show (macFramed mac ourMac etherTypeIpv4 built).payload.length = _
    rw [payload_length, payload_length]
    show ((message frame).length + 20 + 14).toNat = _
    omega
  · show ∃ length checksum : UInt16, _ ∧ ((macFramed mac ourMac etherTypeIpv4 built).payload.drop 14).take 20 = _
    obtain ⟨checksum, hbytes⟩ := readBytes_ipHeader (pingAnswered (message frame)).data ((message frame).index - ipHeaderSize)
      (UInt16.ofInt ((message frame).length + ipHeaderSize)) ipProtocolIcmp ourIp (message frame).sendersIp
    refine ⟨UInt16.ofInt ((message frame).length + ipHeaderSize), checksum, ?_, ?_⟩
    · rw [ofInt_toNat, payload_length, ipHeaderSize]
      omega
    · rw [hheader, hbytes]
  · show onesSum (((macFramed mac ourMac etherTypeIpv4 built).payload.drop 14).take 20) = _
    rw [hheader, onesSum_ipHeader]
  · show ∃ checksum : UInt16, (macFramed mac ourMac etherTypeIpv4 built).payload.drop 34 = _
    rw [hmessage, hanswer]
    apply readBytes_pingReply
    omega
  · show onesSum ((macFramed mac ourMac etherTypeIpv4 built).payload.drop 34) = _
    rw [hmessage, hanswer]
    apply onesSum_pingReply
    · omega
    · omega

/-- What the handlers observe of a ping on its way. -/
def pingEvents (frame : NetworkPacket) : List Event :=
  [.window .ipSend ((message frame).index - ipHeaderSize) ((message frame).length + ipHeaderSize) ipHeaderSize,
    .window .handleIcmp (message frame).index (message frame).length icmpHeaderSize,
    .window .handleIp (macStripped frame).index (macStripped frame).length ipHeaderSize,
    .window .handleMac frame.index frame.length macHeaderSize]

/-- The state in which `ip_send` looks for the way to the sender. -/
def replyFramed (t : Stack) (packet : PacketId) : Stack :=
  (Stack.advanced t t.freeNetworkPackets (pingEvents (t.packets packet))).write packet
    (ipFramed ipProtocolIcmp t.ourIp (message (t.packets packet)).sendersIp (pingAnswered (message (t.packets packet))))

theorem replyFramed_eq (t : Stack) (packet : PacketId) :
    (Stack.advanced (icmpAnswered (ipDelivered (macDelivered t packet) packet) packet)
      (icmpAnswered (ipDelivered (macDelivered t packet) packet) packet).freeNetworkPackets
      [.window .ipSend ((message (t.packets packet)).index - ipHeaderSize)
        ((message (t.packets packet)).length + ipHeaderSize) ipHeaderSize]).write packet
      (ipFramed ipProtocolIcmp t.ourIp (message (t.packets packet)).sendersIp
        (pingAnswered (message (t.packets packet)))) = replyFramed t packet := by
  simp only [replyFramed, icmpAnswered, ipDelivered, macDelivered, Stack.advanced, Stack.write, Stack.observe,
    Function.update_idem, Function.update_self]
  rfl

theorem handleMac_ping (hfits : Fits 0 (t.packets packet)) (hrequest : EchoRequest t.ourIp (t.packets packet))
    (hclear : ¬ ReservedBit (macStripped (t.packets packet))) :
    handleMac packet t = route packet (message (t.packets packet)).sendersIp (replyFramed t packet) := by
  obtain ⟨_, _, hmac, hlong, hicmp, hheader⟩ := message_bounds hfits hrequest
  have hverified : verifyIpHeader (macStripped (t.packets packet)).data (macStripped (t.packets packet)).index
      (trimmedLength (macStripped (t.packets packet))) = true :=
    verifyIpHeader_iff.mpr ⟨hrequest.version, not_not.mp hclear, hheader⟩
  have haccepts : IpAccepts t.ourIp ipProtocolIcmp (macStripped (t.packets packet)) :=
    ⟨hverified, hrequest.target, hrequest.protocol⟩
  have hpacket : (ipDelivered (macDelivered t packet) packet).packets packet = message (t.packets packet) := by
    rw [ipDelivered_packet, macDelivered_packet]
    rfl
  have hping : IsPing ((ipDelivered (macDelivered t packet) packet).packets packet) := by
    rw [hpacket]
    exact ⟨hicmp, hrequest.type⟩
  rw [handleMac_icmp hmac hlong hrequest.ip haccepts, handleIcmp_ping hping, ipSend_eq, hpacket, ← replyFramed_eq]
  simp only [icmpAnswered, Stack.write_packets, Function.update_self, hpacket]
  rfl

/-- With the MAC address of the target at hand, the packet is handed over at once. -/
theorem route_handed (packet : PacketId) {ip : Ip} (h : Known s ip) :
    ∃ frame, wp (route packet ip) (fun _ u => Handed packet frame s u) (fun _ u => Handed packet frame s u) s := by
  unfold route
  by_cases hbroadcast : shouldBroadcast s.ourNetmask ip = true
  · refine ⟨(macFramed broadcastMac s.ourMac etherTypeIpv4 (s.packets packet)).payload, ?_⟩
    simp only [wp_bind, wp_get, wp_ite, hbroadcast, if_true]
    exact macSend_handed _ _ _
  · obtain ⟨entry, hfound, hvalid⟩ := h.resolve_left hbroadcast
    refine ⟨(macFramed (s.arp.entries entry).mac s.ourMac etherTypeIpv4 (s.packets packet)).payload, ?_⟩
    unfold arpSend
    simp only [wp_bind, wp_get, wp_ite, hbroadcast, wp_emit, wp_findArpEntry, Stack.observe_arp, hfound, hvalid, if_true]
    have htrace : (s.observe (.arpSend packet ip)).trace = [.arpSend packet ip] ++ s.trace := rfl
    have hsent := macSend_handed (s := s.observe (.arpSend packet ip)) packet (s.arp.entries entry).mac etherTypeIpv4
    apply wp_mono hsent
    · intro _ u hu
      exact hu.before htrace rfl
    · intro _ u hu
      exact hu.before htrace rfl

/-- What first becomes of the packet in `handle_mac` and in what runs after it. -/
def fateOf (packet : PacketId) (later : List Op) (t : Stack) : Fate :=
  fateIn packet (handleMac packet >>= fun _ => execAll later) t

/-- What the handlers observe of a ping that is refused. -/
def refusalEvents (frame : NetworkPacket) : List Event :=
  [.window .handleIp (macStripped frame).index (macStripped frame).length ipHeaderSize,
    .window .handleMac frame.index frame.length macHeaderSize]

/-- A ping whose reserved bit is set is given back, and nothing else happens. -/
theorem handleMac_reserved (hfits : Fits 0 (t.packets packet)) (hrequest : EchoRequest t.ourIp (t.packets packet))
    (hreserved : ReservedBit (macStripped (t.packets packet))) :
    ∃ u, handleMac packet t = freeNetworkPacket packet u ∧ u.trace = refusalEvents (t.packets packet) ++ t.trace := by
  obtain ⟨_, _, hmac, hlong, _, _⟩ := message_bounds hfits hrequest
  have hverify : verifyIpHeader (macStripped (t.packets packet)).data (macStripped (t.packets packet)).index
      (trimmedLength (macStripped (t.packets packet))) = false := by
    apply Bool.eq_false_of_not_eq_true
    intro hverified
    exact hreserved (verifyIpHeader_iff.mp hverified).2.1
  refine ⟨ipRefused (macDelivered t packet) packet, handleMac_refused hmac hlong hrequest.ip hverify, ?_⟩
  simp [ipRefused, macDelivered, refusalEvents]

theorem fateOf_refused (hfits : Fits 0 (t.packets packet)) (hrequest : EchoRequest t.ourIp (t.packets packet))
    (hreserved : ReservedBit (macStripped (t.packets packet))) (later : List Op) : fateOf packet later t = .freed := by
  obtain ⟨start, hfreed, htrace⟩ := handleMac_reserved hfits hrequest hreserved
  let y : Net Unit := freeNetworkPacket packet >>= fun _ => execAll later
  have hrun : (handleMac packet >>= fun _ => execAll later) t = y start := bind_eq _ hfreed
  have hblind : Blind packet (t.packets packet) (t.packets packet) start.trace True y :=
    .bind (freeNetworkPacket_blind packet) fun _ => execAll_blind later
  rw [fateOf, fateIn_advanced hrun htrace rfl (hblind.later start)]
  exact fateIn_freed later start

theorem fateOf_answered (hfits : Fits 0 (t.packets packet)) (hrequest : EchoRequest t.ourIp (t.packets packet))
    (hclear : ¬ ReservedBit (macStripped (t.packets packet))) (later : List Op) :
    fateOf packet later t =
      fateIn packet (route packet (message (t.packets packet)).sendersIp >>= fun _ => execAll later)
        (replyFramed t packet) := by
  have htrace : (replyFramed t packet).trace = pingEvents (t.packets packet) ++ t.trace := rfl
  have hblind : Blind packet (t.packets packet) (t.packets packet) (replyFramed t packet).trace True
      (route packet (message (t.packets packet)).sendersIp >>= fun _ => execAll later) :=
    .bind (route_blind _) fun _ => execAll_blind later
  apply fateIn_advanced _ htrace rfl (hblind.later _)
  apply bind_eq
  exact handleMac_ping hfits hrequest hclear

/-- A received frame is in its buffer, and nothing but the caller of `handle_mac` has it. -/
theorem received_bounds (h : Reaches Op.exec (fun _ _ => True) (booted application time entropy) s)
    (hreceived : gmacReceive s = .ok (some packet) t) :
    Fits 0 (t.packets packet) ∧ occurrences t packet = 0 := by
  obtain ⟨limit, held, hs⟩ := reaches_intact False h fun hfalse => hfalse.elim
  obtain ⟨ht, _, _, hnext⟩ := wp_ok (gmacReceive_sound hs (le_refl _)) hreceived
  obtain ⟨_, hfits⟩ := hnext packet rfl
  have hone := ht.owned packet
  simp only [Option.toList_some, List.singleton_append, List.count_cons_self] at hone
  exact ⟨hfits, by omega⟩

/-- A frame that an echo request leaves as, now or after anything that may follow, is its reply. Where the reserved bit
is clear and the MAC address of the sender is known, it leaves at once. -/
theorem echo_reply (h : Reaches Op.exec (fun _ _ => True) (booted application time entropy) s)
    (hreceived : gmacReceive s = .ok (some packet) t) (hrequest : EchoRequest t.ourIp (t.packets packet))
    (later : List Op) :
    (∀ frame, fateOf packet later t = .sent frame → ReplyTo t.ourIp (message (t.packets packet)).sendersIp
        (message (t.packets packet)).payload frame) ∧
      (¬ ReservedBit (macStripped (t.packets packet)) → Known t (message (t.packets packet)).sendersIp →
        ∃ frame, fateOf packet later t = .sent frame) := by
  obtain ⟨hfits, hunstored⟩ := received_bounds h hreceived
  constructor
  · intro frame hsent
    by_cases hreserved : ReservedBit (macStripped (t.packets packet))
    · rw [fateOf_refused hfits hrequest hreserved] at hsent
      cases hsent
    · have hwaits := waits_of_unstored (s := replyFramed t packet) hunstored
      have hblind : Blind packet ((replyFramed t packet).packets packet) ((replyFramed t packet).packets packet)
          (replyFramed t packet).trace True
          (route packet (message (t.packets packet)).sendersIp >>= fun _ => execAll later) :=
        .bind (route_blind _) fun _ => execAll_blind later
      rw [fateOf_answered hfits hrequest hreserved] at hsent
      obtain ⟨_, hframed⟩ := fateIn_same hblind hwaits (SameWindow.refl _)
      obtain ⟨mac, ourMac, rfl⟩ := hframed frame hsent
      have hcontent : (replyFramed t packet).packets packet = ipFramed ipProtocolIcmp t.ourIp
          (message (t.packets packet)).sendersIp (pingAnswered (message (t.packets packet))) := by
        simp [replyFramed]
      rw [hcontent]
      exact answer_frame hfits hrequest mac ourMac
  · intro hclear hknown
    have hknown' : Known (replyFramed t packet) (message (t.packets packet)).sendersIp := hknown
    obtain ⟨frame, hhanded⟩ := route_handed packet hknown'
    rw [fateOf_answered hfits hrequest hclear]
    exact ⟨frame, fateIn_handed hhanded later⟩

/-- The call has handed the packet to the driver, or to `arp_send` for this address. -/
def PassedOn (packet : PacketId) (ip : Ip) (event : Event) : Prop :=
  event = .arpSend packet ip ∨ ∃ frame, event = .gmacSend packet frame

/-- The request is answered: the call passes a packet on to its sender, at once if the sender is known, and the frame
that the packet leaves as is the reply, whatever follows the call. -/
structure Answered (packet : PacketId) (t : Stack) : Prop where
  passed : ∃ event ∈ newEvents (handleMac packet) t, PassedOn packet (message (t.packets packet)).sendersIp event
  sent : Known t (message (t.packets packet)).sendersIp → ∀ later, ∃ frame, fateOf packet later t = .sent frame
  right : ∀ later frame, fateOf packet later t = .sent frame →
    ReplyTo t.ourIp (message (t.packets packet)).sendersIp (message (t.packets packet)).payload frame

theorem newEvents_eq {x : Net Unit} {new : List Event} (h : (final (x s)).trace = new ++ s.trace) :
    newEvents x s = new := by
  unfold newEvents
  rw [h]
  simp

theorem handed_passedOn {ip : Ip} {request : List UInt8} {new : List Event} (h : fate packet new = .sent request) :
    ∃ event ∈ new, PassedOn packet ip event := by
  induction new with
  | nil => cases h
  | cons event past ih =>
    by_cases hpast : fate packet past = .sent request
    · obtain ⟨earlier, hmem, hpassed⟩ := ih hpast
      exact ⟨earlier, List.mem_cons_of_mem event hmem, hpassed⟩
    · have hwaiting : fate packet past = .waiting := by
        by_contra hgone
        rw [fate, Fate.after_gone hgone] at h
        exact hpast h
      rw [fate, hwaiting] at h
      refine ⟨event, List.mem_cons_self, .inr ?_⟩
      cases event with
      | gmacSend q frame =>
        simp only [Fate.after] at h
        split at h
        · next hq => exact ⟨frame, by rw [hq]⟩
        · cases h
      | freed q =>
        simp only [Fate.after] at h
        split at h <;> cases h
      | _ => cases h

/-- `ip_send` gives every packet to the driver or to ARP. -/
theorem route_passes (packet : PacketId) (ip : Ip) (s : Stack) :
    ∃ new, (final (route packet ip s)).trace = new ++ s.trace ∧ ∃ event ∈ new, PassedOn packet ip event := by
  let P : Stack → Prop := fun t => ∃ new, t.trace = new ++ s.trace ∧ ∃ event ∈ new, PassedOn packet ip event
  apply final_of_wp (P := P)
  unfold route
  by_cases hbroadcast : shouldBroadcast s.ourNetmask ip = true
  · simp only [wp_bind, wp_get, wp_ite, hbroadcast, if_true]
    have hpassed : ∀ t, Handed packet (macFramed broadcastMac s.ourMac etherTypeIpv4 (s.packets packet)).payload s t → P t := by
      rintro t ⟨new, htrace, hsent⟩
      exact ⟨new, htrace, handed_passedOn hsent⟩
    apply wp_mono (macSend_handed packet broadcastMac etherTypeIpv4)
    · exact fun _ => hpassed
    · exact fun _ => hpassed
  · obtain ⟨rest, hparts, hrest⟩ := arpSend_parts packet ip
    simp only [wp_bind, wp_get, wp_ite, hbroadcast]
    rw [hparts]
    apply wp_of_final
    obtain ⟨new, hnew⟩ := (hrest ()).sends.suffix (s.observe (.arpSend packet ip))
    refine ⟨new ++ [.arpSend packet ip], ?_, .arpSend packet ip, by simp, .inl rfl⟩
    rw [List.append_assoc]
    exact hnew.symm

theorem refused_events (hfits : Fits 0 (t.packets packet)) (hrequest : EchoRequest t.ourIp (t.packets packet))
    (hreserved : ReservedBit (macStripped (t.packets packet))) (ip : Ip) :
    ∀ event ∈ newEvents (handleMac packet) t, ¬ PassedOn packet ip event := by
  obtain ⟨u, hfreed, htrace⟩ := handleMac_reserved hfits hrequest hreserved
  have hall : (final (handleMac packet t)).trace = (.freed packet :: refusalEvents (t.packets packet)) ++ t.trace := by
    rw [hfreed, List.cons_append, ← htrace]
    rfl
  rw [newEvents_eq hall]
  simp [PassedOn, refusalEvents]

/-- A received echo request is answered exactly where its reserved bit is clear. -/
theorem echo_reply_iff (h : Reaches Op.exec (fun _ _ => True) (booted application time entropy) s)
    (hreceived : gmacReceive s = .ok (some packet) t) (hrequest : EchoRequest t.ourIp (t.packets packet)) :
    Answered packet t ↔ ¬ ReservedBit (macStripped (t.packets packet)) := by
  obtain ⟨hfits, _⟩ := received_bounds h hreceived
  constructor
  · intro hanswered hreserved
    obtain ⟨event, hmem, hpassed⟩ := hanswered.passed
    exact refused_events hfits hrequest hreserved _ event hmem hpassed
  · intro hclear
    constructor
    · obtain ⟨new, htrace, event, hmem, hpassed⟩ :=
        route_passes packet (message (t.packets packet)).sendersIp (replyFramed t packet)
      have hnew : (final (handleMac packet t)).trace = (new ++ pingEvents (t.packets packet)) ++ t.trace := by
        rw [handleMac_ping hfits hrequest hclear, htrace, List.append_assoc]
        rfl
      rw [newEvents_eq hnew]
      exact ⟨event, List.mem_append_left _ hmem, hpassed⟩
    · intro hknown later
      exact (echo_reply h hreceived hrequest later).2 hclear hknown
    · intro later
      exact (echo_reply h hreceived hrequest later).1

instance (p : NetworkPacket) : Decidable (ReservedBit p) := inferInstanceAs (Decidable (_ ≠ _))

instance (s : Stack) (ip : Ip) : Decidable (Known s ip) := inferInstanceAs (Decidable (_ ∨ _))

theorem echoRequest_iff : EchoRequest ourIp frame ↔
    (CarriesIp frame ∧ frame.data (frame.index + macHeaderSize) >>> 4 = 4 ∧ ¬ IsFragment (macStripped frame)) ∧
      (ipHeaderSize ≤ ipHeaderLength frame.data (frame.index + macHeaderSize) ∧
        shouldFilterAway ourIp (readBe32 frame.data (frame.index + macHeaderSize + 16)) = false ∧
        frame.data (frame.index + macHeaderSize + 9) = ipProtocolIcmp) ∧
      icmpHeaderSize ≤ (message frame).length ∧ frame.data (message frame).index = icmpTypePingRequest := by
  constructor
  · intro h
    exact ⟨⟨h.ip, h.version, h.whole⟩, ⟨h.header, h.target, h.protocol⟩, h.length, h.type⟩
  · rintro ⟨⟨hip, hversion, hwhole⟩, ⟨hheader, htarget, hprotocol⟩, hlength, htype⟩
    exact ⟨hip, hversion, hwhole, hheader, htarget, hprotocol, hlength, htype⟩

instance (ourIp : Ip) (frame : NetworkPacket) : Decidable (EchoRequest ourIp frame) :=
  decidable_of_iff _ echoRequest_iff.symm

/-- A ping from 10.0.0.1 to 10.0.0.99, with these flags, four bytes of IP options and a message of 11 bytes. -/
def pingFrame (flags : UInt8) : List UInt8 :=
  [2, 0, 0, 0, 0, 99, 2, 0, 0, 0, 0, 1, 0x08, 0x00,
    0x46, 0, 0, 35, 0, 0, flags, 0, 64, 1, 0, 0, 10, 0, 0, 1, 10, 0, 0, 99, 1, 1, 1, 0,
    8, 0, 0, 0, 0, 7, 0, 1, 97, 98, 99]

/-- The frame that has been received is a ping of 11 bytes from a known host. -/
def receivesPing (reserved : Bool) (s : Stack) : Bool :=
  (received s).any fun result =>
    EchoRequest result.2.ourIp (result.2.packets result.1) ∧
      (ReservedBit (macStripped (result.2.packets result.1)) ↔ reserved = true) ∧
      Known result.2 (message (result.2.packets result.1)).sendersIp ∧
      (message (result.2.packets result.1)).payload.length = 11

theorem receives_ping (flags : UInt8) (reserved : Bool)
    (hrun : runs Op.exec (fun _ _ => true) (receivesPing reserved) (AddressResolution.replyAfter 1 1 ++
      [.deliver 1 60 (pingFrame flags)]) (booted zeroApplication 0 fun _ => 0) = true) :
    ∃ s packet t, Reaches Op.exec (fun _ _ => True) (booted zeroApplication 0 fun _ => 0) s ∧
      gmacReceive s = .ok (some packet) t ∧ EchoRequest t.ourIp (t.packets packet) ∧
      (ReservedBit (macStripped (t.packets packet)) ↔ reserved = true) ∧
      Known t (message (t.packets packet)).sendersIp ∧ (message (t.packets packet)).payload.length = 11 := by
  obtain ⟨s, hreach, hcheck⟩ := reaches_of_runs (fun _ _ => True) .start (fun _ _ _ _ => trivial) hrun
  unfold receivesPing at hcheck
  rw [Option.any_eq_true] at hcheck
  obtain ⟨⟨packet, t⟩, hreceived, hping⟩ := hcheck
  exact ⟨s, packet, t, hreach, received_eq_some hreceived, of_decide_eq_true hping⟩

theorem echo_reply_iff_eleven :
    ∃ s packet t frame, gmacReceive s = .ok (some packet) t ∧ Answered packet t ∧ fateOf packet [] t = .sent frame ∧
      frame.length = 45 := by
  obtain ⟨s, packet, t, hreach, hreceived, hrequest, hreserved, hknown, hlength⟩ :=
    receives_ping 0 false (by decide +kernel)
  have hanswered := (echo_reply_iff hreach hreceived hrequest).mpr (by simp [hreserved])
  obtain ⟨frame, hframe⟩ := hanswered.sent hknown []
  have hbytes := (hanswered.right [] frame hframe).length
  rw [hlength] at hbytes
  exact ⟨s, packet, t, frame, hreceived, hanswered, hframe, hbytes⟩

/-- With the reserved bit set, the same ping from the same known host is freed. -/
theorem reserved_ping_freed :
    ∃ s packet t, Reaches Op.exec (fun _ _ => True) (booted zeroApplication 0 fun _ => 0) s ∧
      gmacReceive s = .ok (some packet) t ∧ EchoRequest t.ourIp (t.packets packet) ∧
      Known t (message (t.packets packet)).sendersIp ∧ (∀ later, fateOf packet later t = .freed) ∧ ¬ Answered packet t := by
  obtain ⟨s, packet, t, hreach, hreceived, hrequest, hreserved, hknown, _⟩ :=
    receives_ping 0x80 true (by decide +kernel)
  obtain ⟨hfits, _⟩ := received_bounds hreach hreceived
  have hfreed := fateOf_refused hfits hrequest (hreserved.mpr rfl)
  refine ⟨s, packet, t, hreach, hreceived, hrequest, hknown, hfreed, fun hanswered => ?_⟩
  obtain ⟨frame, hsent⟩ := hanswered.sent hknown []
  rw [hfreed] at hsent
  cases hsent

end MiniIp.Guarantees.EchoReply
