import MiniIp.Invariant.Poll
import MiniIp.Invariant.ShortDatagram
import MiniIp.Invariant.Steady
import MiniIp.Invariant.Transfer

/-!
# Block numbers beyond 65535

`try_read_data` (tftp.c:223) compares the 16 bits of the datagram with `connection->block_number + 1`, which C computes
in `int`. After block 65535 the sum is 65536, and no block is the next one.
-/

set_option autoImplicit false

namespace MiniIp.Guarantees.BlockRollover

open MiniIp.Source MiniIp.Invariant MiniIp.Library.Runs MiniIp.Library.StopAndWait
  MiniIp.Library.Wp

/-- The datagram that the client takes next is DATA with the number behind its current block, from its server, with at
least one byte. -/
structure NextBlock (s : Stack) (content : NetworkPacket) : Prop where
  reading : s.application.connection.state = .read
  head : headDatagram s s.application.connection.clientPort = some content
  fromServer : content.sourcePort = s.application.connection.serverPort
  opcode : readBe16 content.data content.index = tftpOpcodeData
  number : readBe16 content.data (content.index + 2) = s.application.connection.blockNumber + 1
  length : tftpDataHeaderSize < content.length

/-- The payload is returned, as far as the caller's buffer goes, and the block is the current one. -/
structure Accepted (size : Int) (connection : TftpConnection) (content : NetworkPacket)
    (out : TftpResult × TftpConnection) : Prop where
  bytes : out.1.bytes = (content.payload.drop 4).take size.toNat
  count : out.1.count = out.1.bytes.length
  blockNumber : out.2.blockNumber = connection.blockNumber + 1

variable {application : Application} {time : Time} {entropy : ℕ → UInt32} {s t : Stack} {content : NetworkPacket}
  {connection : TftpConnection} {size : Int} {out : TftpResult × TftpConnection} {n : ℕ}

/-- The number behind the current one is larger, or the numbers have run out. -/
theorem next_number_iff (b : UInt16) : (b + 1).toNat = b.toNat + 1 ↔ b ≠ 65535 := by
  have hlt := b.toNat_lt
  rw [UInt16.toNat_add, ne_eq, ← UInt16.toNat_inj]
  show (b.toNat + 1) % 65536 = b.toNat + 1 ↔ ¬ b.toNat = 65535
  omega

theorem polled_next (hsource : content.sourcePort = connection.serverPort)
    (hnumber : readBe16 content.data (content.index + 2) = connection.blockNumber + 1)
    (hlength : tftpDataHeaderSize < content.length ∧ content.length ≤ 1024) (hsize : 0 ≤ size ∧ size < 2147483648)
    (hnext : connection.blockNumber ≠ 65535) :
    Accepted size connection content (polled connection size (some content)) := by
  obtain ⟨hlong, hshort⟩ := hlength
  rw [tftpDataHeaderSize] at hlong
  let count := limitDataSize size content.length
  have hcount : count = min size (content.length - 4) := limitDataSize_whole ⟨by omega, by omega⟩ hsize
  have htaken : TakenAsNext connection content :=
    ⟨.inr hsource.symm, hnumber ▸ (next_number_iff _).mpr hnext⟩
  have hread : readData connection size (some content) =
      (⟨count, readBytes content.data (content.index + tftpDataHeaderSize) count.toNat⟩,
        { connection with blockNumber := connection.blockNumber + 1 }) := by
    rw [readData_next htaken, hnumber]
  have hbytes : readBytes content.data (content.index + tftpDataHeaderSize) count.toNat =
      (content.payload.drop 4).take size.toNat := by
    rw [hcount, copied_bytes (by omega) hsize.1]
  have hlengths : count = (readBytes content.data (content.index + tftpDataHeaderSize) count.toNat).length := by
    rw [readBytes_length]
    omega
  unfold polled
  rw [hread]
  dsimp only
  split
  · next hzero =>
    have hnothing : readBytes content.data (content.index + tftpDataHeaderSize) count.toNat = [] := by
      rw [hzero]
      rfl
    exact ⟨hnothing.symm.trans hbytes, rfl, rfl⟩
  · split
    · exact ⟨hbytes, hlengths, rfl⟩
    · exact ⟨hbytes, hlengths, rfl⟩

theorem polled_last (hnumber : readBe16 content.data (content.index + 2) = connection.blockNumber + 1)
    (hlast : connection.blockNumber = 65535) :
    TakesNothing connection (polled connection size (some content)) := by
  apply polled_other
  rw [hnumber, ne_eq, next_number_iff]
  exact not_not.mpr hlast

/-- A whole block leaves all but the number as it was. -/
theorem polled_full {head : Option NetworkPacket} (hfull : ¬ (polled connection size head).1.count < 512) :
    (polled connection size head).2 =
      { connection with blockNumber := (polled connection size head).2.blockNumber } := by
  unfold polled at hfull ⊢
  dsimp only at hfull ⊢
  split at hfull
  · exact absurd (by decide : TftpResult.nothing.count < 512) hfull
  · split at hfull
    · next hlast => exact absurd hlast hfull
    · next hcount hlast =>
      rw [if_neg hcount, if_neg hlast]
      exact readData_connection connection size head

/-- `tftp_read` accepts the next block of its server exactly where the current one is not block 65535. When the call
returns is `tftpRead_returns`. -/
theorem next_block_accepted_iff (h : Reaches Op.exec (fun _ _ => True) (booted application time entropy) s)
    (hnext : NextBlock s content) (hsize : 0 ≤ size ∧ size < 2147483648)
    (hreturns : tftpRead s.application.connection size s = .ok out t) :
    Accepted size s.application.connection content out ↔ s.application.connection.blockNumber ≠ 65535 := by
  have hintact := reached_short h
  have hshort := hintact.short hnext.head
  obtain ⟨limit, held, hs⟩ := hintact
  obtain ⟨hresult, ⟨backoff, hconnection⟩, _⟩ := wp_ok (tftpRead_polls size hs hnext.reading) hreturns
  rw [hnext.head] at hresult hconnection
  have hsame : Accepted size s.application.connection content out ↔
      Accepted size s.application.connection content (polled s.application.connection size (some content)) := by
    constructor
    · rintro ⟨hbytes, hcount, hblock⟩
      rw [hresult] at hbytes hcount
      rw [hconnection] at hblock
      exact ⟨hbytes, hcount, hblock⟩
    · rintro ⟨hbytes, hcount, hblock⟩
      rw [← hresult] at hbytes hcount
      exact ⟨hbytes, hcount, by rw [hconnection]; exact hblock⟩
  rw [hsame]
  constructor
  · intro haccepted hlast
    have hblock := haccepted.blockNumber
    rw [(polled_last hnext.number hlast).connection, hlast] at hblock
    exact absurd hblock (by decide)
  · exact polled_next hnext.fromServer hnext.number ⟨hnext.length, hshort⟩ hsize

/-- A file of 65537 blocks. -/
@[irreducible] def longFile : List UInt8 := List.replicate 33554432 0

def longServer : Server := ⟨0x0A000002, 2000, longFile⟩

/-- The frame in which it sends a block to 10.0.0.1. -/
def blockFrame (i : ℕ) : List UInt8 :=
  [0, 0, 0, 0, 0, 0, 2, 0, 0, 0, 0, 1] ++ (be16Bytes etherTypeIpv4 ++
    (ipHeaderBytes 544 0 ipProtocolUdp longServer.ip 0x0A000001 ++
      (udpHeaderBytes longServer.port tftpClientPort 524 0 ++ longServer.bytes (.data i))))

/-- The download is in the READ state behind block `i`, with these packets in the client's queue. -/
structure Downloading (i spare : ℕ) (queue : List PacketId) (s : Stack) : Prop where
  reached : Reaches Op.exec (fun _ _ => True) (booted zeroApplication 0 fun _ => 0) s
  steady : Steady 0 spare s
  ring : RingIdle s
  waiting : ∃ c, Waiting s tftpClientPort c queue ∧ (s.udp.connections c).maxPacketCount = 1
  address : s.ourIp = 0x0A000001
  state : s.application.connection.state = .read
  clientPort : s.application.connection.clientPort = tftpClientPort
  serverPort : s.application.connection.serverPort = longServer.port
  blockNumber : s.application.connection.blockNumber.toNat = i

theorem longFile_length : longFile.length = 33554432 := by
  unfold longFile
  exact List.length_replicate

theorem longServer_last : lastBlock 512 longServer.file = 65537 := by
  have hlength : longServer.file.length = 33554432 := longFile_length
  rw [lastBlock, hlength]

theorem longServer_length {i : ℕ} (hi : 1 ≤ i ∧ i ≤ 65536) : (longServer.bytes (.data i)).length = 516 := by
  have hblock : (block 512 longServer.file i).length = 512 := by
    apply block_length_of_lt hi.1
    rw [longServer_last]
    omega
  rw [Server.bytes]
  simp only [List.length_append, be16Bytes_length, hblock]

theorem blockFrame_frame {i : ℕ} (hi : 1 ≤ i ∧ i ≤ 65536) :
    DatagramFrame longServer.port tftpClientPort longServer.ip 0x0A000001 (longServer.bytes (.data i)) (blockFrame i) := by
  refine ⟨[0, 0, 0, 0, 0, 0, 2, 0, 0, 0, 0, 1], 544, 0, 524, 0, rfl, ?_, rfl⟩
  rw [longServer_length hi]
  rfl

/-- A block arrives while the client's queue is empty. -/
theorem block_arrives (h : Downloading n 2 [] s) {i : ℕ} (hi : 1 ≤ i ∧ i ≤ 65536) :
    ∃ p t, Downloading n 1 [p] t ∧ longServer.Sent (.data i) (t.packets p) := by
  obtain ⟨hreached, hsteady, hring, ⟨c, hwaiting, hlimit⟩, haddress, hstate, hclient, hserver, hnumber⟩ := h
  obtain ⟨_, _, hs⟩ := reaches_intact False hreached fun hfalse => hfalse.elim
  have hslot := hs.rxSlots s.gmac.rxIndex
  rw [Option.isSome_iff_exists] at hslot
  obtain ⟨p, hslot⟩ := hslot
  have hlength := longServer_length hi
  have harrives := datagram_arrives hsteady hring hs.owned hslot hwaiting (by omega) (blockFrame_frame hi) (by omega) (by omega)
    (.inr (.inl haddress))
  have hreaches : wp ((Op.deliver s.gmac.rxIndex (Fin.ofNat 1025 (blockFrame i).length) (blockFrame i)).exec >>=
      fun _ => Op.receive.exec)
      (fun _ t => Reaches Op.exec (fun _ _ => True) (booted zeroApplication 0 fun _ => 0) t) (fun _ _ => True) s := by
    rw [wp_bind]
    apply wp_next (hreached.next trivial)
    intro _ t ht
    exact ht.next trivial
  have hboth : wp ((Op.deliver s.gmac.rxIndex (Fin.ofNat 1025 (blockFrame i).length) (blockFrame i)).exec >>=
      fun _ => Op.receive.exec) _ (fun _ _ => False) s :=
    wp_mono (wp_and harrives hreaches) (fun _ _ hpost => hpost) fun _ _ hstop => hstop.1
  obtain ⟨_, t, _, ⟨⟨ht, hidle⟩, hqueued, happlication, hip, hkept, hpayload, hport, hsender⟩, hreach⟩ := returns_of_wp hboth
  refine ⟨p, t, ?_, ⟨hsender, hport, hpayload, hi.1, ?_⟩⟩
  · rw [← happlication] at hstate hclient hserver hnumber
    exact ⟨hreach, ht, hidle, ⟨c, hqueued, hkept.trans hlimit⟩, hip.trans haddress, hstate, hclient, hserver, hnumber⟩
  · rw [longServer_last]
    omega

theorem Downloading.head {p : PacketId} (h : Downloading n 1 [p] s) :
    headDatagram s s.application.connection.clientPort = some (s.packets p) := by
  obtain ⟨c, hwaiting, _⟩ := h.waiting
  rw [headDatagram, h.clientPort, hwaiting.head]
  rfl

theorem Downloading.next {p : PacketId} (h : Downloading n 1 [p] s)
    (hsent : longServer.Sent (.data (n + 1)) (s.packets p)) : NextBlock s (s.packets p) := by
  have hlt := s.application.connection.blockNumber.toNat_lt
  rw [h.blockNumber] at hlt
  have hlength := hsent.length
  rw [longServer_length (by omega)] at hlength
  constructor
  · exact h.state
  · exact h.head
  · exact hsent.port.trans h.serverPort.symm
  · exact hsent.opcode
  · rw [hsent.number, Message.number, ← UInt16.toNat_inj, UInt16.toNat_ofNat', UInt16.toNat_add, h.blockNumber]
    rfl
  · rw [hlength, tftpDataHeaderSize]
    decide

/-- The next block is taken. -/
theorem block_taken {p : PacketId} (h : Downloading n 1 [p] s) (hsent : longServer.Sent (.data (n + 1)) (s.packets p))
    (hn : n < 65535) : ∃ t, Downloading (n + 1) 2 [] t := by
  have hnext := h.next hsent
  have hlength := hsent.length
  rw [longServer_length (by omega)] at hlength
  obtain ⟨hreached, hsteady, hring, ⟨c, hwaiting, hlimit⟩, haddress, hstate, hclient, hserver, hnumber⟩ := h
  obtain ⟨limit, held, hs⟩ := reached_short hreached
  have hhead := hwaiting.head
  have hsmall : s.application.connection.blockNumber ≠ 65535 := by
    rw [ne_eq, ← UInt16.toNat_inj, hnumber]
    show ¬ n = 65535
    omega
  have haccepted := polled_next hnext.fromServer hnext.number ⟨hnext.length, by omega⟩
    (by decide : (0 : Int) ≤ 512 ∧ (512 : Int) < 2147483648) hsmall
  have hwaits : (queueHead s s.application.connection.clientPort).isSome := by rw [hclient, hhead]; rfl
  have hruns := readFile_steady hsteady hs hstate 512 hwaits
  have hpolls := readFile_polls 512 hs hstate
  have hreaches : wp (readFile 512)
      (fun _ t => Reaches Op.exec (fun _ _ => True) (booted zeroApplication 0 fun _ => 0) t) (fun _ _ => True) s :=
    (hreached.next trivial : wp (Op.readFile 512).exec _ _ s)
  have hboth : wp (readFile 512) _ (fun _ _ => False) s :=
    wp_mono (wp_and hruns (wp_and hpolls hreaches)) (fun _ _ hpost => hpost) fun _ _ hstop => hstop.1
  obtain ⟨_, t, _, ⟨ht, hkeptRing, hip⟩, hpolled, hreach⟩ := returns_of_wp hboth
  obtain ⟨backoff, happlication⟩ := hpolled.application
  rw [hnext.head] at happlication
  have hfull : ¬ (polled s.application.connection 512 (some (s.packets p))).1.count < 512 := by
    rw [haccepted.count, haccepted.bytes, hsent.payload, List.length_take, List.length_drop,
      longServer_length (by omega)]
    decide
  rw [polled_full hfull, haccepted.blockNumber] at happlication
  have hudp := hpolled.took.udp
  rw [hclient, hhead] at hudp
  have hempty : Waiting t tftpClientPort c [] := hwaiting.dequeued.kept hudp
  have hkept := listeners_max hpolled.listeners c
  have hidle : RingIdle t := by
    intro i
    have hdescriptors : t.gmac.rxDescriptors = s.gmac.rxDescriptors := congrArg Prod.fst hkeptRing
    rw [hdescriptors]
    exact hring i
  refine ⟨t, hreach, ht, hidle, ⟨c, hempty, hkept.trans hlimit⟩, hip.trans haddress, ?_, ?_, ?_, ?_⟩
  · rw [happlication]
    exact hstate
  · rw [happlication]
    exact hclient
  · rw [happlication]
    exact hserver
  · rw [happlication]
    show (s.application.connection.blockNumber + 1).toNat = n + 1
    rw [(next_number_iff _).mpr hsmall, hnumber]

/-- Before the first block. -/
def readyForBlocks (s : Stack) : Bool :=
  (findConnection s.udp tftpClientPort).any fun c =>
    ((s.udp.connections c).packetCount = 0 ∧ (s.udp.connections c).packetQueue = [] ∧
      (s.udp.connections c).maxPacketCount = 1) ∧
    (2 ≤ s.freeNetworkPackets.length ∧ transmitErrors s.gmac.tsr = false ∧ s.ourNetmask = 0xFFFFFFFF ∧
      ∀ i, (s.gmac.rxDescriptors i).owner = .gmac) ∧
    s.ourIp = 0x0A000001 ∧ s.application.connection.state = .read ∧
      s.application.connection.clientPort = tftpClientPort ∧ s.application.connection.serverPort = 2000 ∧
      s.application.connection.blockNumber.toNat = 0

/-- The server accepts the request. -/
def acceptedRequest : List Op :=
  [.setOurIp 0x0A000001, .setOurNetmask 0xFFFFFFFF, .downloadFile [102] longServer.ip,
    .deliverUdp 0 longServer.port tftpClientPort (longServer.bytes .oack), .receive, .readFile 512]

theorem download_starts : ∃ s, Downloading 0 2 [] s := by
  have hrun : runs Op.exec (fun _ _ => true) readyForBlocks acceptedRequest (booted zeroApplication 0 fun _ => 0) =
      true := by
    decide +kernel
  obtain ⟨s, hreached, hready⟩ := reaches_of_runs (fun _ _ => True) .start (fun _ _ _ _ => trivial) hrun
  unfold readyForBlocks at hready
  rw [Option.any_eq_true] at hready
  obtain ⟨c, hfound, hready⟩ := hready
  obtain ⟨⟨hcount, hqueue, hlimit⟩, ⟨hpool, htsr, hnetmask, hidle⟩, haddress, hstate, hclient, hserver, hnumber⟩ :=
    of_decide_eq_true hready
  exact ⟨s, hreached, ⟨hpool, htsr, fun _ => hnetmask⟩, hidle, ⟨c, ⟨hfound, hcount, hqueue⟩, hlimit⟩, haddress, hstate,
    hclient, hserver, hnumber⟩

/-- The download gets as far as any block up to 65535. -/
theorem downloading_reached (n : ℕ) (hn : n ≤ 65535) : ∃ s, Downloading n 2 [] s := by
  induction n with
  | zero => exact download_starts
  | succ n ih =>
    obtain ⟨s, hs⟩ := ih (by omega)
    obtain ⟨p, t, ht, hsent⟩ := block_arrives hs (i := n + 1) ⟨by omega, by omega⟩
    exact block_taken ht hsent (by omega)

/-- Block 65536, with number 0, is not accepted. -/
theorem block_zero_refused :
    ∃ s content out t, Reaches Op.exec (fun _ _ => True) (booted zeroApplication 0 fun _ => 0) s ∧
      longServer.Sent (.data 65536) content ∧ NextBlock s content ∧ s.application.connection.blockNumber = 65535 ∧
      tftpRead s.application.connection 512 s = .ok out t ∧ out.1.bytes = [] ∧
      out.2.blockNumber = 65535 ∧ ¬ Accepted 512 s.application.connection content out := by
  obtain ⟨r, hr⟩ := downloading_reached 65535 (le_refl _)
  obtain ⟨p, s, hs, hsent⟩ := block_arrives hr (i := 65536) (by decide)
  have hnext := hs.next hsent
  obtain ⟨hreached, hsteady, hring, ⟨c, hwaiting, _⟩, _, hstate, hclient, _, hnumber⟩ := hs
  obtain ⟨limit, held, hsound⟩ := reached_short hreached
  have hlast : s.application.connection.blockNumber = 65535 := UInt16.toNat_inj.mp hnumber
  obtain ⟨out, t, hreturns, _⟩ := returns_of_wp (tftpRead_afforded hsound hsteady 512)
  obtain ⟨hresult, ⟨backoff, hconnection⟩, _⟩ := wp_ok (tftpRead_polls 512 hsound hstate) hreturns
  have hnothing : TakesNothing s.application.connection
      (polled s.application.connection 512 (some (s.packets p))) := polled_last hnext.number hlast
  rw [hnext.head] at hresult hconnection
  have hblock : out.2.blockNumber = 65535 := by
    rw [hconnection, hnothing.connection]
    exact hlast
  refine ⟨s, s.packets p, out, t, hreached, hsent, hnext, hlast, hreturns, ?_, hblock, ?_⟩
  · rw [hresult]
    exact hnothing.bytes
  · intro haccepted
    have hwrapped := haccepted.blockNumber
    rw [hblock, hlast] at hwrapped
    exact absurd hwrapped (by decide)

theorem next_block_accepted_first :
    ∃ s content out t, Reaches Op.exec (fun _ _ => True) (booted zeroApplication 0 fun _ => 0) s ∧ NextBlock s content ∧
      tftpRead s.application.connection 512 s = .ok out t ∧ Accepted 512 s.application.connection content out := by
  obtain ⟨r, hr⟩ := download_starts
  obtain ⟨p, s, hs, hsent⟩ := block_arrives hr (i := 1) (by decide)
  have hnext := hs.next hsent
  obtain ⟨hreached, hsteady, hring, ⟨c, hwaiting, _⟩, _, hstate, hclient, _, hnumber⟩ := hs
  obtain ⟨limit, held, hsound⟩ := reached_short hreached
  obtain ⟨out, t, hreturns, _⟩ := returns_of_wp (tftpRead_afforded hsound hsteady 512)
  have hsmall : s.application.connection.blockNumber ≠ 65535 := by
    rw [ne_eq, ← UInt16.toNat_inj, hnumber]
    decide
  have haccepted := (next_block_accepted_iff hreached hnext (by decide) hreturns).mpr hsmall
  exact ⟨s, s.packets p, out, t, hreached, hnext, hreturns, haccepted⟩

end MiniIp.Guarantees.BlockRollover
