import MiniIp.Invariant.ArpFrame
import MiniIp.Invariant.SameDatagram
import MiniIp.Invariant.SoundRun
import MiniIp.Library.Runs

/-!
# Old bytes of a buffer on the wire

Buffers are recycled without clearing. The builders of UDP and TFTP packets and of ARP replies write every byte of
what they send. `dhcp_send_packet` (dhcp.c:169-215) leaves out `padding`, `host_name` and
`boot_filename`, the bytes 34 to 235 of its header: they go out with the bytes of an
earlier packet. The other packets of ARP are written whole, but their target MAC is copied from an
object that is dead by then (arp.c:133, 145): they go out with what is left in its place.
-/

set_option autoImplicit false

namespace MiniIp.Guarantees.StaleBytes

open MiniIp.Source MiniIp.Invariant MiniIp.Library.Runs MiniIp.Library.Wp

/-- The calls that build a packet from a fresh buffer. -/
inductive Build where
  | arp (targetMac : Mac) (targetIp : Ip) (arpType : ArpType)
  | dhcp (type : DhcpPacketType)
  | tftpRequest (connection : TftpConnection)
  | tftpAck (connection : TftpConnection)
  | tftpError (connection : TftpConnection) (destPort : Port) (errorCode : UInt16) (errorMessage : List UInt8)
  | udp (data : Nat → UInt8) (size : Int) (sourcePort destPort : Port) (ip : Ip)

def Build.exec : Build → Net Unit
  | arp targetMac targetIp arpType => sendArpPacket targetMac targetIp arpType
  | dhcp type => dhcpSendPacket type
  | tftpRequest connection => sendTftpRequest connection
  | tftpAck connection => ackCurrentBlock connection
  | tftpError connection destPort errorCode errorMessage => sendErrorTo connection destPort errorCode errorMessage
  | udp data size sourcePort destPort ip => udpSend data size sourcePort destPort ip

/-- What first becomes of a packet in a call and what runs after it: the frame it is handed to `gmac_send` with, or
that it is freed. -/
def fateOf (p : PacketId) (b : Build) (later : List Op) (s : Stack) : Fate :=
  fateIn p (b.exec >>= fun _ => execAll later) s

/-- A packet of ARP whose target MAC is copied from the dead object. -/
def Build.Dangles (b : Build) : Prop :=
  ∃ targetMac targetIp arpType, b = .arp targetMac targetIp arpType ∧ arpType ≠ .reply

/-- The packet goes to the driver within the call; it never waits for the MAC of its target. -/
def Build.AtOnce : Build → Prop
  | arp _ _ _ => True
  | dhcp _ => True
  | _ => False

/-- The state with an other packet in a buffer, and other bytes left behind by dead variables. -/
def reused (s : Stack) (p : PacketId) (old : NetworkPacket) (residue : ℕ → Mac) : Stack :=
  { s.write p old with application.residue := residue }

/-- The two buffers agree in the fields that `dhcp_send_packet` leaves out. -/
def SameLeftOut (old old' : NetworkPacket) : Prop :=
  ∀ x, 178 ≤ x → x < 380 → old'.data x = old.data x

variable {application : Application} {time : Time} {entropy : ℕ → UInt32} {s : Stack} {p : PacketId}
  {rest : List PacketId}

theorem fateOf_tftp (honce : occurrences s p = 1) (hpool : s.freeNetworkPackets = p :: rest) (connection : TftpConnection)
    (destPort : Port) (bytes : List UInt8) (old : NetworkPacket) (later : List Op) :
    fateIn p (sendTftpPacket connection destPort bytes >>= fun _ => execAll later) (s.write p old) =
      fateIn p (sendTftpPacket connection destPort bytes >>= fun _ => execAll later) s := by
  have hbuilds := filled_builds hpool (fun k => { k with
    data := writeBytes bytes k.index k.data, length := bytes.length }) connection.clientPort destPort
    connection.serverIp
  exact (hbuilds.same honce hpool (filled_same bytes (Int.le_refl _) _ old) later).1

theorem fateOf_udp (honce : occurrences s p = 1) (hpool : s.freeNetworkPackets = p :: rest) (data : Nat → UInt8) (size : Int)
    (sourcePort destPort : Port) (ip : Ip) (old : NetworkPacket) (later : List Op) :
    fateIn p (udpSend data size sourcePort destPort ip >>= fun _ => execAll later) (s.write p old) =
      fateIn p (udpSend data size sourcePort destPort ip >>= fun _ => execAll later) s := by
  let size' := if size < networkPacketUserSize then size else networkPacketUserSize
  let bytes := (List.range size'.toNat).map data
  have hlength : size' ≤ bytes.length := by
    simp only [bytes, List.length_map, List.length_range]
    omega
  have hbuilds := filled_builds hpool (fun k => { k with
    data := writeBytes bytes k.index k.data, length := size' }) sourcePort destPort ip
  exact (hbuilds.same honce hpool (filled_same bytes hlength _ old) later).1

theorem reused_self (s : Stack) (p : PacketId) (old : NetworkPacket) :
    reused s p old s.application.residue = s.write p old := rfl

theorem arpBytes_target {operation : UInt16} {sendersMac mac mac' : Mac} {sendersIp targetIp : Ip}
    (h : arpBytes operation sendersMac sendersIp mac targetIp = arpBytes operation sendersMac sendersIp mac' targetIp) :
    mac = mac' := by
  unfold arpBytes at h
  rw [List.append_cancel_right_eq, List.append_cancel_left_eq] at h
  exact macBytes_injective h

/-- The frame shows the target MAC, wherever it comes from. -/
theorem arpFrame_eq_iff (targetMac : Mac) (targetIp : Ip) (arpType : ArpType) (old old' : NetworkPacket)
    (residue : ℕ → Mac) :
    arpFrame (reused s p old' residue) targetMac targetIp arpType old' = arpFrame s targetMac targetIp arpType old ↔
      (arpType ≠ .reply → residueOf (reused s p old' residue) = residueOf s) := by
  let sendersIp := if arpType = .probe then 0 else s.ourIp
  let askedIp := if arpType = .announcement ∨ arpType = .gratuitous then s.ourIp else targetIp
  let operation := if arpType = .gratuitous ∨ arpType = .reply then arpOperationReply else arpOperationRequest
  have hframe : ∀ (u : Stack) (old : NetworkPacket), u.ourMac = s.ourMac → u.ourIp = s.ourIp →
      arpFrame u targetMac targetIp arpType old =
        macBytes (if arpType = .reply then targetMac else broadcastMac) ++ macBytes s.ourMac ++ be16Bytes etherTypeArp ++
          arpBytes operation s.ourMac sendersIp (if arpType ≠ .reply then residueOf u else targetMac) askedIp := by
    intro u old hmac hip
    unfold arpFrame
    rw [macFramed_frame _ _ _ (arpFilled_length _ _ _ _ _), hmac]
    have hbytes : (arpFilled u targetMac targetIp arpType (emptied old)).payload =
        arpBytes operation u.ourMac (if arpType = .probe then 0 else u.ourIp)
          (if arpType ≠ .reply then residueOf u else targetMac)
          (if arpType = .announcement ∨ arpType = .gratuitous then u.ourIp else targetIp) :=
      readBytes_arpHeader _ _ _ _ _ _ _
    rw [hbytes, hmac, hip]
  rw [hframe (reused s p old' residue) old' rfl rfl, hframe s old rfl rfl, List.append_cancel_left_eq]
  by_cases hreply : arpType = .reply
  · simp [hreply]
  · have htarget : ∀ mac, (if arpType ≠ .reply then mac else targetMac) = mac := fun _ => if_pos hreply
    rw [htarget, htarget]
    constructor
    · intro hbytes _
      exact arpBytes_target hbytes
    · intro hsame
      rw [hsame hreply]

theorem fateOf_arp (hpool : s.freeNetworkPackets = p :: rest) (targetMac : Mac) (targetIp : Ip) (arpType : ArpType)
    (old : NetworkPacket) (residue : ℕ → Mac) (later : List Op) :
    fateIn p (sendArpPacket targetMac targetIp arpType >>= fun _ => execAll later) (reused s p old residue) =
        fateIn p (sendArpPacket targetMac targetIp arpType >>= fun _ => execAll later) s ↔
      (arpType ≠ .reply → residueOf (reused s p old residue) = residueOf s) := by
  have hpool' : (reused s p old residue).freeNetworkPackets = p :: rest := hpool
  have hcontent : (reused s p old residue).packets p = old := by simp only [reused, Stack.write, Function.update_self]
  rw [fateIn_handed (sendArpPacket_handed hpool targetMac targetIp arpType),
    fateIn_handed (sendArpPacket_handed hpool' targetMac targetIp arpType), hcontent, Fate.sent.injEq]
  exact arpFrame_eq_iff targetMac targetIp arpType (s.packets p) old residue

/-- The frame of a DHCP packet. -/
def dhcpFrame (s : Stack) (type : DhcpPacketType) (old : NetworkPacket) : List UInt8 :=
  (macFramed broadcastMac s.ourMac etherTypeIpv4 (udpIpFramed dhcpClientPort dhcpServerPort s.ourIp 0xFFFFFFFF
    (dhcpFilled s type (emptied old)))).payload

/-- DHCP packets are broadcast, so they are handed over at once. -/
theorem dhcp_handed (hpool : s.freeNetworkPackets = p :: rest) (type : DhcpPacketType) :
    wp (dhcpSendPacket type) (fun _ t => Handed p (dhcpFrame s type (s.packets p)) s t)
      (fun _ t => Handed p (dhcpFrame s type (s.packets p)) s t) s := by
  have hrun := (dhcp_builds hpool type).run (s.packets p)
  rw [Stack.write_self] at hrun
  unfold wp
  rw [hrun]
  have hroute : ∀ u, route p 0xFFFFFFFF u = macSend p broadcastMac etherTypeIpv4 u := by
    intro u
    apply eq_of_wp
    intro Q E h
    simpa [route, shouldBroadcast_all, macBroadcast] using h
  rw [hroute]
  let start := (Stack.advanced s rest (udpEvents dhcpClientPort dhcpServerPort 0xFFFFFFFF
    (dhcpFilled s type (emptied (s.packets p))) ++ [.dhcpSent type])).write p (udpIpFramed dhcpClientPort
    dhcpServerPort s.ourIp 0xFFFFFFFF (dhcpFilled s type (emptied (s.packets p))))
  have hback : ∀ t, Handed p (macFramed broadcastMac start.ourMac etherTypeIpv4 (start.packets p)).payload start t →
      Handed p (dhcpFrame s type (s.packets p)) s t := by
    intro t ht
    have hcontent : start.packets p = udpIpFramed dhcpClientPort dhcpServerPort s.ourIp 0xFFFFFFFF
        (dhcpFilled s type (emptied (s.packets p))) := by
      simp only [start, Stack.write_packets, Function.update_self]
    rw [hcontent] at ht
    exact ht.before rfl rfl
  apply wp_mono (macSend_handed (s := start) p broadcastMac etherTypeIpv4)
  · exact fun _ => hback
  · exact fun _ => hback

/-- A frame shows all bytes of its window. -/
theorem sameWindow_of_payload {k k' : NetworkPacket} (hindex : k'.index = k.index) (hlength : k'.length = k.length)
    (h : k'.payload = k.payload) : SameWindow k k' where
  index := hindex
  length := hlength
  data := by
    intro x hle hlt
    unfold NetworkPacket.payload at h
    rw [hindex, hlength] at h
    have hbytes := sameBytes_of_readBytes h
    exact hbytes x hle (by omega)

/-- The frame shows the bytes that have not been written. -/
theorem dhcpFrame_eq_iff (type : DhcpPacketType) (old old' : NetworkPacket) :
    dhcpFrame s type old' = dhcpFrame s type old ↔ SameLeftOut old old' := by
  constructor
  · intro hframe x hle hlt
    have hindex : ∀ old, (udpIpFramed dhcpClientPort dhcpServerPort s.ourIp 0xFFFFFFFF
        (dhcpFilled s type (emptied old))).index = 116 := fun _ => rfl
    have hlength : ∀ old, (udpIpFramed dhcpClientPort dhcpServerPort s.ourIp 0xFFFFFFFF
        (dhcpFilled s type (emptied old))).length = 240 + (dhcpPacketOptions s.dhcp type ++ [dhcpOptionEnd]).length +
          8 + 20 := fun _ => rfl
    have hbyte : ∀ old, (macFramed broadcastMac s.ourMac etherTypeIpv4 (udpIpFramed dhcpClientPort dhcpServerPort
        s.ourIp 0xFFFFFFFF (dhcpFilled s type (emptied old)))).data x = old.data x := by
      intro old
      have hin : (dhcpFilled s type (emptied old)).index ≤ x := by
        show 144 ≤ x
        omega
      rw [macFramed_data _ _ _ (by rw [hindex]; omega), udpIpFramed_data _ _ _ _ hin, dhcpFilled_data s type old hle hlt]
    rw [← hbyte old, ← hbyte old']
    apply (sameWindow_of_payload _ _ hframe).data
    · simp only [macFramed, hindex, macHeaderSize]
      omega
    · simp only [macFramed, hindex, hlength, macHeaderSize]
      omega
    · simp only [macFramed, hindex]
    · simp only [macFramed, hlength]
  · intro hleft
    have hsame := (dhcpFilled_same s type hleft).udpIpFramed dhcpClientPort dhcpServerPort s.ourIp 0xFFFFFFFF
    exact (hsame.macFramed broadcastMac s.ourMac etherTypeIpv4).payload

theorem fateOf_dhcp (hpool : s.freeNetworkPackets = p :: rest) (type : DhcpPacketType) (old : NetworkPacket)
    (residue : ℕ → Mac) (later : List Op) :
    fateIn p (dhcpSendPacket type >>= fun _ => execAll later) (reused s p old residue) =
        fateIn p (dhcpSendPacket type >>= fun _ => execAll later) s ↔
      SameLeftOut (s.packets p) old := by
  have hpool' : (reused s p old residue).freeNetworkPackets = p :: rest := hpool
  have hcontent : (reused s p old residue).packets p = old := by simp only [reused, Stack.write, Function.update_self]
  rw [fateIn_handed (dhcp_handed hpool type), fateIn_handed (dhcp_handed hpool' type), hcontent, Fate.sent.injEq]
  exact dhcpFrame_eq_iff type (s.packets p) old

/-- What becomes of the packet does not depend on the old content of its buffer, unless it is a DHCP packet: then the
old contents must agree in what `dhcp_send_packet` leaves out. What dead variables have left has a part in packets of
ARP other than replies, and in no other packet that is sent at once; for those that may wait for an address it is
the same in both runs. The packet is in the pool and nowhere else, as it is in every state reached, and
within an operation as well. -/
theorem fate_independent_iff (hpool : s.freeNetworkPackets = p :: rest) :
    (Reaches Op.exec (fun _ _ => True) (booted application time entropy) s → occurrences s p = 1) ∧
      (occurrences s p = 1 → ∀ (b : Build) (later : List Op) (old : NetworkPacket) (residue : ℕ → Mac),
        (b.AtOnce ∨ residue = s.application.residue) →
        (fateOf p b later (reused s p old residue) = fateOf p b later s ↔
          ((∃ type, b = .dhcp type) → SameLeftOut (s.packets p) old) ∧
            (b.Dangles → residueOf (reused s p old residue) = residueOf s))) := by
  constructor
  · intro h
    obtain ⟨limit, held, hs⟩ := reaches_intact False h fun hfalse => hfalse.elim
    exact hs.owned.pool_once hpool
  intro honce b later old residue hresidue
  have hwaits : ¬ b.AtOnce → reused s p old residue = s.write p old := by
    intro hlater
    rw [hresidue.resolve_left hlater, reused_self]
  cases b with
  | dhcp type =>
    have hiff := fateOf_dhcp hpool type old residue later
    constructor
    · intro hequal
      exact ⟨fun _ => hiff.mp hequal, fun hdangles => by simp [Build.Dangles] at hdangles⟩
    · intro hsame
      exact hiff.mpr (hsame.1 ⟨type, rfl⟩)
  | arp targetMac targetIp arpType =>
    have hiff := fateOf_arp hpool targetMac targetIp arpType old residue later
    simpa [fateOf, Build.exec, Build.Dangles] using hiff
  | tftpRequest connection =>
    have hequal := fateOf_tftp honce hpool connection connection.serverPort (tftpRequestBytes connection) old later
    rw [hwaits id]
    simpa [fateOf, Build.exec, Build.Dangles, sendTftpRequest] using hequal
  | tftpAck connection =>
    have hequal := fateOf_tftp honce hpool connection connection.serverPort (ackBytes connection.blockNumber) old
      later
    rw [hwaits id]
    simpa [fateOf, Build.exec, Build.Dangles, ackCurrentBlock] using hequal
  | tftpError connection destPort errorCode errorMessage =>
    have hequal := fateOf_tftp honce hpool connection destPort
      (be16Bytes tftpOpcodeError ++ be16Bytes errorCode ++ stringFollowedByZero errorMessage) old later
    rw [hwaits id]
    simpa [fateOf, Build.exec, Build.Dangles, sendErrorTo] using hequal
  | udp data size sourcePort destPort ip =>
    have hequal := fateOf_udp honce hpool data size sourcePort destPort ip old later
    rw [hwaits id]
    simpa [fateOf, Build.exec, Build.Dangles] using hequal

/-- A request for an address shows nothing of an earlier packet, and the six bytes of a dead variable. -/
theorem fate_independent_arp :
    ∃ s p, Reaches Op.exec (fun _ _ => True) (booted zeroApplication 0 fun _ => 0) s ∧
      ∀ old residue, (fateOf p (.arp zeroMac 0x0A000001 .request) [] (reused s p old residue) =
          fateOf p (.arp zeroMac 0x0A000001 .request) [] s ↔
        residueOf (reused s p old residue) = residueOf s) := by
  have hrun : runs Op.exec (fun _ _ => true) (fun s => s.freeNetworkPackets.head?.isSome) []
      (booted zeroApplication 0 fun _ => 0) = true := by
    decide +kernel
  obtain ⟨s, hreach, hsome⟩ := reaches_of_runs (fun _ _ => True) .start (fun _ _ _ _ => trivial) hrun
  obtain ⟨p, hhead⟩ := Option.isSome_iff_exists.mp hsome
  obtain ⟨rest, hpool⟩ := List.head?_eq_some_iff.mp hhead
  have hindependent := @fate_independent_iff zeroApplication 0 (fun _ => 0) s p rest hpool
  refine ⟨s, p, hreach, ?_⟩
  intro old residue
  have hiff := hindependent.2 (hindependent.1 hreach) (.arp zeroMac 0x0A000001 .request) [] old residue (.inl trivial)
  rw [hiff]
  constructor
  · intro h
    exact h.2 ⟨_, _, _, rfl, by decide⟩
  · intro hsame
    exact ⟨fun hdhcp => by simp at hdhcp, fun _ => hsame⟩

/-- A frame that no layer takes is received, and its buffer goes back to the pool. -/
def receivesFrame (byte : UInt8) : List Op :=
  [.deliver 0 1024 (List.replicate 1024 byte), .receive, .dhcpStart]

theorem reaches_received (byte : UInt8)
    (hrun : runs Op.exec (fun _ _ => true)
      (fun s => s.freeNetworkPackets.head? = some 87 ∧ (s.packets 87).data 200 = byte) (receivesFrame byte)
      (booted zeroApplication 0 fun _ => 0) = true) :
    ∃ s rest, Reaches Op.exec (fun _ _ => True) (booted zeroApplication 0 fun _ => 0) s ∧
      s.freeNetworkPackets = 87 :: rest ∧ (s.packets 87).data 200 = byte := by
  obtain ⟨s, hreach, hcheck⟩ := reaches_of_runs (fun _ _ => True) .start (fun _ _ _ _ => trivial) hrun
  obtain ⟨hhead, hbyte⟩ := of_decide_eq_true hcheck
  obtain ⟨rest, hpool⟩ := List.head?_eq_some_iff.mp hhead
  exact ⟨s, rest, hreach, hpool, hbyte⟩

/-- What a discover is sent as depends on the frame whose buffer it is built in. -/
theorem discover_sends_old_bytes :
    ∃ s t rest rest', Reaches Op.exec (fun _ _ => True) (booted zeroApplication 0 fun _ => 0) s ∧
      Reaches Op.exec (fun _ _ => True) (booted zeroApplication 0 fun _ => 0) t ∧
      s.freeNetworkPackets = 87 :: rest ∧ t.freeNetworkPackets = 87 :: rest' ∧
      fateOf 87 (.dhcp .discover) [] (s.write 87 (t.packets 87)) ≠ fateOf 87 (.dhcp .discover) [] s := by
  obtain ⟨s, rest, hs, hpool, hzero⟩ := reaches_received 0 (by decide +kernel)
  obtain ⟨t, rest', ht, hpool', hbyte⟩ := reaches_received 0xAA (by decide +kernel)
  refine ⟨s, t, rest, rest', hs, ht, hpool, hpool', ?_⟩
  intro hequal
  have hleft := (fateOf_dhcp hpool .discover (t.packets 87) s.application.residue []).mp hequal
  have hsame := hleft 200 (by omega) (by omega)
  rw [hzero, hbyte] at hsame
  cases hsame

end MiniIp.Guarantees.StaleBytes
