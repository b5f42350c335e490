import MiniIp.Invariant.Transfer

/-!
# When a download completes

The blocks of a file arrive in order, with any repeats of the last one taken.
`tftp_read` (tftp.c:253-276) uses the number of bytes of a block as its sign that
a block was taken. Where the length of the file is a multiple of 512, the last
block is empty, the number is 0, and the connection stays in the READ state for
ever. For every other file the transfer ends with the last block.
-/

set_option autoImplicit false

namespace MiniIp.Guarantees.TransferCompletion

open MiniIp.Source MiniIp.Invariant MiniIp.Library.Runs MiniIp.Library.StopAndWait MiniIp.Library.Wp

/-- The queue of the client holds DATA with the number of the last block taken or of the next. -/
def nextOrRepeat (server : Server) (taken : ℕ) (client : UdpConnectionId) : QueueContent :=
  fun c _ _ content => c = client → ∃ i, (i = taken ∨ i = taken + 1) ∧ server.Sent (.data i) content

/-- The connection is in the READ state before block 1, with an empty queue for one packet. -/
structure Ready (server : Server) (client : UdpConnectionId) (s : Stack) : Prop where
  state : s.application.connection.state = .read
  blockNumber : s.application.connection.blockNumber = 0
  received : s.application.received = []
  peer : s.application.connection.serverPort = server.port
  found : findConnection s.udp s.application.connection.clientPort = some client
  single : (s.udp.connections client).maxPacketCount = 1
  empty : (s.udp.connections client).packetQueue = []

/-- What arrives for the client is the next block or the last one again, nobody else opens its
port, and the buffers of `tftp_read` hold a block. -/
def Feeds (server : Server) (client : UdpConnectionId) (s : Stack) : Op → Prop
  | .receive => Brings (nextOrRepeat server s.application.connection.blockNumber.toNat client) s
  | .readFile size => 512 ≤ size ∧ size < 2147483648
  | .udpListen port _ => port ≠ s.application.connection.clientPort
  | .dhcpStart => dhcpClientPort ≠ s.application.connection.clientPort
  | .downloadFile .. => False
  | _ => True

/-- The transfer is over, and everything has gone as it should. -/
structure Complete (server : Server) (s : Stack) : Prop where
  done : s.application.connection.state = .done
  acked : .udpSend s.application.connection.clientPort s.application.connection.serverPort
    s.application.connection.serverIp (ackBytes s.application.connection.blockNumber) ∈ s.trace
  received : s.application.received = server.file

/-- The state of a transfer in which the file has been received up to the current block. -/
structure Transferring (server : Server) (client : UdpConnectionId) (s : Stack) : Prop where
  intact : Intact False (nextOrRepeat server s.application.connection.blockNumber.toNat client) s
  found : findConnection s.udp s.application.connection.clientPort = some client
  single : (s.udp.connections client).maxPacketCount = 1
  peer : s.application.connection.serverPort = server.port
  upTo : (receiver s.application).UpTo 512 server.file
  within : s.application.connection.blockNumber.toNat ≤ lastBlock 512 server.file
  running : (s.application.connection.state = .read ∧
      (s.application.connection.blockNumber.toNat < lastBlock 512 server.file ∨
        server.file.length % 512 = 0)) ∨
    (s.application.connection.state = .done ∧
      s.application.connection.blockNumber.toNat = lastBlock 512 server.file ∧
      server.file.length % 512 ≠ 0 ∧
      .udpSend s.application.connection.clientPort s.application.connection.serverPort
        s.application.connection.serverIp (ackBytes s.application.connection.blockNumber) ∈ s.trace)

variable {server : Server} {client : UdpConnectionId} {s t : Stack} {size : Int}

/-- The packets are where they belong. -/
theorem Transferring.keeps (h : Transferring server client s) (op : Op)
    (hbrings : op = .receive →
      Brings (nextOrRepeat server s.application.connection.blockNumber.toNat client) s) :
    wp op.exec (fun _ t => Intact False (nextOrRepeat server
      s.application.connection.blockNumber.toNat client) t) (fun _ _ => True) s :=
  wp_partial (exec_intact h.intact (fun w => w.elim) hbrings) fun _ _ ht => ht

/-- Where the client's one packet has been taken, its queue is empty. -/
theorem Transferring.taken (h : Transferring server client s)
    (htook : Took s t s.application.connection.clientPort) {content : NetworkPacket}
    (hhead : headDatagram s s.application.connection.clientPort = some content) :
    (t.udp.connections client).packetQueue = [] := by
  rw [headDatagram, Option.map_eq_some_iff] at hhead
  obtain ⟨⟨c, p⟩, hqueue, rfl⟩ := hhead
  obtain rfl := queueHead_client h.found hqueue
  obtain ⟨hused, _, hcons⟩ := queueHead_some hqueue
  obtain ⟨_, _, hs⟩ := h.intact
  have hbounded := hs.udp.bounded c hused
  rw [h.single, hcons, List.length_cons] at hbounded
  have hudp := htook.udp
  rw [hqueue] at hudp
  have hnil : (s.udp.connections c).packetQueue.tail = [] :=
    List.eq_nil_of_length_eq_zero (by omega)
  simp [hudp, dequeued, hnil]

/-- The datagram the client takes is DATA with the number of the last block or the next. -/
theorem Transferring.head (h : Transferring server client s) {content : NetworkPacket}
    (hhead : headDatagram s s.application.connection.clientPort = some content) :
    ∃ i, (i = s.application.connection.blockNumber.toNat ∨
      i = s.application.connection.blockNumber.toNat + 1) ∧ server.Sent (.data i) content := by
  rw [headDatagram, Option.map_eq_some_iff] at hhead
  obtain ⟨⟨c, p⟩, hqueue, rfl⟩ := hhead
  have hclient := queueHead_client h.found hqueue
  obtain ⟨_, _, hcons⟩ := queueHead_some hqueue
  obtain ⟨_, _, hs⟩ := h.intact
  exact hs.udpContent c p (by rw [hcons]; exact List.mem_cons_self) hclient

/-- DATA is not misread. -/
theorem not_misread {connection : TftpConnection} {content : NetworkPacket} {i : ℕ}
    (hsent : server.Sent (.data i) content) : ¬ MisreadAsData connection content := by
  intro hmisread
  exact hmisread.1 hsent.opcode

/-- What stays the same for the client. -/
structure SamePeer (client : UdpConnectionId) (s t : Stack) : Prop where
  peer : ∃ blockNumber state backoff, t.application.connection =
    { s.application.connection with
      blockNumber := blockNumber, state := state, backoff := backoff }
  found : findConnection t.udp s.application.connection.clientPort =
    findConnection s.udp s.application.connection.clientPort
  single : (t.udp.connections client).maxPacketCount = (s.udp.connections client).maxPacketCount

/-- The application's connection is as it was. -/
theorem Transferring.unchanged (h : Transferring server client s)
    (hintact : Intact False (nextOrRepeat server s.application.connection.blockNumber.toNat client) t)
    (hpeer : SamePeer client s t)
    (hstate : t.application.connection.state = s.application.connection.state)
    (hblock : t.application.connection.blockNumber = s.application.connection.blockNumber)
    (hreceived : t.application.received = s.application.received) (htrace : s.trace <:+ t.trace) :
    Transferring server client t := by
  obtain ⟨⟨blockNumber, state, backoff, hconnection⟩, hfound, hsingle⟩ := hpeer
  have hport : t.application.connection.clientPort = s.application.connection.clientPort := by
    rw [hconnection]
  have hserver : t.application.connection.serverPort = s.application.connection.serverPort := by
    rw [hconnection]
  have hip : t.application.connection.serverIp = s.application.connection.serverIp := by
    rw [hconnection]
  constructor
  · rw [hblock]
    exact hintact
  · rw [hport, hfound]
    exact h.found
  · rw [hsingle]
    exact h.single
  · rw [hserver]
    exact h.peer
  · have hupTo := h.upTo
    rw [receiver, Receiver.UpTo] at hupTo ⊢
    rw [hblock, hreceived]
    exact hupTo
  · rw [hblock]
    exact h.within
  · rw [hstate, hblock, hport, hserver, hip]
    apply h.running.imp_right
    intro hfinished
    obtain ⟨hdone, hlast, hlength, hacked⟩ := hfinished
    exact ⟨hdone, hlast, hlength, htrace.subset hacked⟩

/-- A poll in the READ state. -/
theorem readFile_transferring (h : Transferring server client s)
    (hfile : lastBlock 512 server.file ≤ 65535) (hsize : 512 ≤ size ∧ size < 2147483648)
    (hread : s.application.connection.state = .read) :
    wp (readFile size) (fun _ t => Transferring server client t) (fun _ _ => True) s := by
  have hkept := h.keeps (.readFile size) (by simp)
  obtain ⟨limit, lost, hs⟩ := h.intact
  apply wp_partial (wp_and (readFile_polls size hs hread) hkept)
  intro _ t hpost
  obtain ⟨⟨⟨backoff, happlication⟩, htook, hacked, htrace, hlisteners⟩, hintact⟩ := hpost
  have hfound := findConnection_listeners hlisteners
  have hsingle := listeners_max hlisteners client
  have hnothing : TakesNothing s.application.connection (polled s.application.connection size
      (headDatagram s s.application.connection.clientPort)) → Transferring server client t := by
    intro htakes
    rw [htakes.connection, htakes.bytes] at happlication
    apply h.unchanged hintact
    · exact ⟨⟨_, _, backoff, by rw [happlication]⟩, hfound _, hsingle⟩
    · rw [happlication]
    · rw [happlication]
    · simp [happlication]
    · exact htrace
  cases hhead : headDatagram s s.application.connection.clientPort with
  | none =>
    rw [hhead] at hnothing
    exact hnothing ⟨rfl, rfl⟩
  | some content =>
    obtain ⟨j, _, hsent⟩ := h.head hhead
    rcases polled_message size hsent (not_misread hsent) hfile hsize with
      htakes | ⟨i, hij, htakes⟩
    · rw [hhead] at hnothing
      exact hnothing htakes
    · cases hij
      obtain ⟨hnext, hbytes, hafter⟩ := htakes
      rw [hhead, hafter, hbytes] at happlication
      have hj := toNat_ofNat_block hsent.offered.2 hfile
      have hempty := h.taken htook hhead
      have hupTo := h.upTo.accept j fun _ => rfl
      rw [Receiver.accept, if_pos (show j = (receiver s.application).taken + 1 from hnext)] at hupTo
      obtain ⟨hfirst, hlast⟩ := hsent.offered
      constructor
      · obtain ⟨limit', lost', ht⟩ := hintact
        refine ⟨limit', lost', { ht with udpContent := fun c p hp hc => ?_ }⟩
        subst hc
        simp [hempty] at hp
      · rw [happlication, hfound]
        exact h.found
      · rw [hsingle]
        exact h.single
      · rw [happlication]
        exact h.peer
      · rw [happlication]
        simpa [receiver, hj] using hupTo
      · simpa [happlication, hj] using hlast
      · rw [happlication] at hacked ⊢
        simp only [hj] at hacked ⊢
        by_cases hend : j = lastBlock 512 server.file
        · have hlength : (block 512 server.file (lastBlock 512 server.file)).length =
              server.file.length % 512 := lastBlock_length (by decide)
          rw [← hend] at hlength
          have hmod := Nat.mod_lt server.file.length (show 0 < 512 by decide)
          by_cases hmultiple : server.file.length % 512 = 0
          · left
            rw [if_neg (by omega)]
            exact ⟨hread, .inr hmultiple⟩
          · right
            rw [if_pos (by omega)] at hacked ⊢
            exact ⟨rfl, hend, hmultiple, hacked rfl⟩
        · have hfull : (block 512 server.file j).length = 512 :=
            block_length_of_lt hfirst (by omega)
          left
          rw [if_neg (by omega)]
          exact ⟨hread, .inl (by omega)⟩

/-- A poll after the end of the transfer does nothing. -/
theorem idle_transferring (h : Transferring server client s)
    (hdone : s.application.connection.state = .done) :
    wp (readFile size) (fun _ t => Transferring server client t) (fun _ _ => True) s := by
  unfold readFile tftpRead
  simp only [wp_bind, wp_get, hdone, wp_pure, wp_modify]
  apply h.unchanged
  · obtain ⟨limit, lost, hs⟩ := h.intact
    exact ⟨limit, lost, hs.congr rfl⟩
  · exact ⟨⟨_, _, _, rfl⟩, rfl, rfl⟩
  · rfl
  · rfl
  · simp [TftpResult.nothing]
  · exact List.suffix_rfl

/-- Every operation of a transfer. -/
theorem exec_transferring (h : Transferring server client s)
    (hfile : lastBlock 512 server.file ≤ 65535) {op : Op} (hop : Feeds server client s op) :
    wp op.exec (fun _ t => Transferring server client t) (fun _ _ => True) s := by
  -- operations that open no port or another one
  have hopened : ¬ Op.WritesApplication op → op ≠ .receive →
      wp op.exec (fun _ t => findConnection t.udp s.application.connection.clientPort = some client ∧
        (t.udp.connections client).maxPacketCount = (s.udp.connections client).maxPacketCount)
        (fun _ _ => True) s →
      wp op.exec (fun _ t => Transferring server client t) (fun _ _ => True) s := by
    intro hwrites hreceive hfinds
    have hframe := (exec_keepsApplication hwrites fun _ => id : KeepsApplication False _) s
    apply wp_partial (wp_and (h.keeps op fun heq => absurd heq hreceive) (wp_and hframe hfinds))
    intro _ t hpost
    obtain ⟨ht, ⟨happlication, htrace, _⟩, hfound, hsingle⟩ := hpost
    apply h.unchanged ht
    · exact ⟨⟨_, _, _, by rw [happlication]⟩, hfound.trans h.found.symm, hsingle⟩
    · rw [happlication]
    · rw [happlication]
    · rw [happlication]
    · exact htrace
  have hclosed : ¬ Op.WritesApplication op → ¬ Op.OpensConnection op →
      (op = .receive → Brings (nextOrRepeat server
        s.application.connection.blockNumber.toNat client) s) →
      wp op.exec (fun _ t => Transferring server client t) (fun _ _ => True) s := by
    intro hwrites hopens hbrings
    have hframe := (exec_keepsApplication hwrites fun ho => absurd ho hopens : KeepsApplication True _) s
    apply wp_partial (wp_and (h.keeps op hbrings) hframe)
    intro _ t hpost
    obtain ⟨ht, happlication, htrace, hkept⟩ := hpost
    have hlisteners := hkept trivial
    apply h.unchanged ht
    · exact ⟨⟨_, _, _, by rw [happlication]⟩, findConnection_listeners hlisteners _,
        listeners_max hlisteners client⟩
    · rw [happlication]
    · rw [happlication]
    · rw [happlication]
    · exact htrace
  obtain ⟨limit, lost, hs⟩ := h.intact
  cases op with
  | receive => exact hclosed id id fun _ => hop
  | readFile size =>
    rcases h.running with ⟨hread, _⟩ | ⟨hdone, _⟩
    · exact readFile_transferring h hfile hop hread
    · exact idle_transferring h hdone
  | downloadFile filename serverIp => exact hop.elim
  | udpListen port maxPacketCount =>
    exact hopened id (by simp) (udpListen_finds hs.udp maxPacketCount hop h.found)
  | dhcpStart =>
    apply hopened id (by simp)
    simp only [Op.exec, dhcpStart, setDhcpState, wp_bind, wp_modifyDhcp, wp_emit, wp_random,
      wp_getTime]
    apply udpListen_finds
    · exact hs.udp
    · exact hop
    · exact h.found
  | _ => exact hclosed id id (by simp)

/-- A poll stops only where the transmitter reports an error or the pool is empty. -/
theorem readFile_stops (hintact : Intact False (fun _ _ _ _ => True) s) (size : Int) :
    wp (readFile size) (fun _ _ => True)
      (fun halt t => (halt = .transmitError ∧ transmitErrors s.gmac.tsr = true) ∨
        (halt = .poolEmpty ∧ t.freeNetworkPackets = [])) s := by
  obtain ⟨limit, lost, hs⟩ := hintact
  have hlost := hs.owned.held_length
  have hreports : wp (readFile size) (fun _ _ => True)
      (fun halt t => ClientFrame False s t ∧ ErrorReported halt t) s := by
    unfold readFile
    simp only [wp_bind, wp_get, wp_modify]
    exact wp_next (tftpRead_spares _ size s) fun _ _ _ => trivial
  have hruns : wp (readFile size) (fun _ _ => True) (Stopped False (fun _ _ _ _ => True) limit 97) s := by
    have hpermitted : Permitted False (fun _ _ _ _ => True) limit s (.readFile size) := fun w => w.elim
    exact wp_next (exec_sound 97 hs (by omega) hpermitted) fun _ _ _ => trivial
  apply wp_mono (wp_and hruns hreports)
  · intro _ t _
    trivial
  · intro halt t ht
    obtain ⟨hstopped, hframe, hreported⟩ := ht
    cases halt with
    | poolEmpty => exact .inr ⟨rfl, (hstopped.pool rfl).1⟩
    | transmitError => exact .inl ⟨rfl, hframe.tsr ▸ hreported rfl⟩
    | nullPointer => exact absurd rfl hstopped.node

/-- The poll that finds the next block takes it. -/
def TakesNext (server : Server) (s : Stack) : Prop :=
  ∀ size content, 512 ≤ size → size < 2147483648 → s.application.connection.state = .read →
    headDatagram s s.application.connection.clientPort = some content →
    server.Sent (.data (s.application.connection.blockNumber.toNat + 1)) content →
    wp (readFile size)
      (fun _ t => t.application.connection.blockNumber.toNat =
        s.application.connection.blockNumber.toNat + 1)
      (fun halt t => (halt = .transmitError ∧ transmitErrors s.gmac.tsr = true) ∨
        (halt = .poolEmpty ∧ t.freeNetworkPackets = [])) s

theorem Transferring.takesNext (h : Transferring server client s)
    (hfile : lastBlock 512 server.file ≤ 65535) : TakesNext server s := by
  intro size content hsize hlimit hread hhead hsent
  obtain ⟨limit, lost, hs⟩ := h.intact
  have hstops := readFile_stops ⟨limit, lost, { hs with udpContent := fun _ _ _ => trivial }⟩ size
  apply wp_mono (wp_and (readFile_polls size hs hread) hstops)
  · intro _ t hpost
    obtain ⟨⟨⟨backoff, happlication⟩, _⟩, _⟩ := hpost
    have hport : ¬ (s.application.connection.serverPort ≠ tftpInitialServerPort ∧
        s.application.connection.serverPort ≠ content.sourcePort) := by
      rw [h.peer, hsent.port]
      simp
    have htakes := polled_block hsent hport rfl hfile ⟨hsize, hlimit⟩
    rw [hhead, htakes.connection] at happlication
    simp only [happlication]
    exact toNat_ofNat_block hsent.offered.2 hfile
  · intro _ _ ht
    exact ht.2

variable {s₀ : Stack} {application : Application} {time : Time} {entropy : Nat → UInt32}

theorem Ready.transferring {ok : Stack → Op → Prop} (h : Ready server client s)
    (hreach : Reaches Op.exec ok (booted application time entropy) s) :
    Transferring server client s := by
  obtain ⟨limit, lost, hs⟩ := reaches_intact False hreach fun w => w.elim
  have hpositive : 0 < lastBlock 512 server.file := Nat.succ_pos _
  constructor
  · refine ⟨limit, lost, { hs with udpContent := fun c p hp hc => ?_ }⟩
    subst hc
    simp [h.empty] at hp
  · exact h.found
  · exact h.single
  · exact h.peer
  · simp [receiver, h.blockNumber, h.received, Receiver.UpTo]
  · simp [h.blockNumber]
  · left
    refine ⟨h.state, .inl ?_⟩
    rw [h.blockNumber]
    exact hpositive

/-- Every block that arrives in turn is taken, and once the last one has been taken the transfer is
complete exactly if the length of the file is no multiple of 512. -/
theorem completed {ok : Stack → Op → Prop} (hfile : lastBlock 512 server.file ≤ 65535)
    (hreach : Reaches Op.exec ok (booted application time entropy) s₀) (hready : Ready server client s₀)
    (h : Reaches Op.exec (Feeds server client) s₀ s) :
    TakesNext server s ∧
      (s.application.connection.blockNumber.toNat = lastBlock 512 server.file →
        (Complete server s ↔ server.file.length % 512 ≠ 0)) := by
  have hs : Transferring server client s := by
    apply h.invariant (hready.transferring hreach)
    intro s op _ hs met
    exact exec_transferring hs hfile met
  refine ⟨hs.takesNext hfile, fun hlast => ?_⟩
  constructor
  · intro hcomplete hmultiple
    rcases hs.running with ⟨hread, _⟩ | ⟨_, _, hlength, _⟩
    · rw [hcomplete.done] at hread
      cases hread
    · exact hlength hmultiple
  · intro hlength
    rcases hs.running with ⟨_, hearlier⟩ | ⟨hdone, _, _, hacked⟩
    · omega
    · exact ⟨hdone, hacked, hs.upTo.complete (by decide) hlast⟩

/-- A connection on 10.0.0.2 is ready, and the client's queue is the first one. -/
def readyCheck (server : Server) (client : UdpConnectionId) (s : Stack) : Bool :=
  s.application.connection.state = .read ∧ s.application.connection.blockNumber = 0 ∧
    s.application.received = [] ∧ s.application.connection.serverPort = server.port ∧
    findConnection s.udp s.application.connection.clientPort = some client ∧
    (s.udp.connections client).maxPacketCount = 1 ∧ (s.udp.connections client).packetQueue = []

theorem ready_of_check (h : readyCheck server client s = true) : Ready server client s := by
  obtain ⟨hstate, hblock, hreceived, hpeer, hfound, hsingle, hempty⟩ := of_decide_eq_true h
  exact ⟨hstate, hblock, hreceived, hpeer, hfound, hsingle, hempty⟩

/-- Check an operation: what arrives for the client is the next block or the last one again. -/
def feedsGuard (server : Server) (client : UdpConnectionId) (s : Stack) : Op → Bool
  | .receive => (nextFrame s).all fun frame =>
      findConnection s.udp (datagramPort frame) ≠ some client ∨
        ((datagram frame).sendersIp = server.ip ∧ (datagram frame).sourcePort = server.port ∧
          [s.application.connection.blockNumber.toNat,
            s.application.connection.blockNumber.toNat + 1].any fun i =>
              (datagram frame).payload = server.bytes (.data i) ∧ 1 ≤ i ∧ i ≤ lastBlock 512 server.file)
  | .readFile size => 512 ≤ size ∧ size < 2147483648
  | .udpListen .. | .dhcpStart | .downloadFile .. => false
  | _ => true

theorem feeds_of_guard {op : Op} (h : feedsGuard server client s op = true) :
    Feeds server client s op := by
  cases op with
  | receive =>
    intro frame hframe _ c hfind p hc
    subst hc
    simp only [feedsGuard, hframe, Option.all_some] at h
    rcases of_decide_eq_true h with hother | ⟨hip, hport, hnumber⟩
    · exact absurd hfind hother
    · obtain ⟨i, hi, hsent⟩ := List.any_eq_true.mp hnumber
      obtain ⟨hpayload, hoffered⟩ := of_decide_eq_true hsent
      refine ⟨i, ?_, ⟨hip, hport, hpayload, hoffered⟩⟩
      simpa using hi
  | readFile size =>
    have hsize : 512 ≤ size ∧ size < 2147483648 := of_decide_eq_true h
    exact hsize
  | udpListen port maxPacketCount => cases h
  | dhcpStart => cases h
  | downloadFile filename serverIp => cases h
  | _ => trivial

/-- A server with this file. -/
def serverOf (file : List UInt8) : Server := ⟨0x0A000002, 2000, file⟩

/-- The request and the OACK. -/
def requested (server : Server) : List Op :=
  [.downloadFile [102] server.ip, .deliverUdp 0 server.port tftpClientPort (server.bytes .oack),
    .receive, .readFile 512]

/-- Block 1 arrives, and is polled for. -/
def firstBlock (server : Server) : List Op :=
  [.deliverUdp 1 server.port tftpClientPort (server.bytes (.data 1)), .receive, .readFile 512]

/-- Compute a transfer of one block from the request on. -/
def transfers (server : Server) (check : Stack → Bool) : Bool :=
  runs Op.exec (fun _ _ => true)
    (fun s => readyCheck server 15 s && runs Op.exec (feedsGuard server 15) check (firstBlock server) s)
    (requested server) (booted zeroApplication 0 fun _ => 0)

theorem reaches_of_transfers {check : Stack → Bool} (h : transfers server check = true) :
    ∃ s₀ s, Reaches Op.exec (fun _ _ => True) (booted zeroApplication 0 fun _ => 0) s₀ ∧
      Ready server 15 s₀ ∧ Reaches Op.exec (Feeds server 15) s₀ s ∧ check s = true := by
  obtain ⟨s₀, hreach, hrest⟩ := reaches_of_runs (fun _ _ => True) .start (fun _ _ _ _ => trivial) h
  rw [Bool.and_eq_true] at hrest
  obtain ⟨hready, hrun⟩ := hrest
  obtain ⟨s, hfed, hcheck⟩ := reaches_of_runs (Feeds server 15) .start
    (fun _ _ _ hguard => feeds_of_guard hguard) hrun
  exact ⟨s₀, s, hreach, ready_of_check hready, hfed, hcheck⟩

/-- A file of one byte is complete after its block. -/
theorem completed_one_byte :
    ∃ s, TakesNext (serverOf [7]) s ∧ s.application.connection.blockNumber.toNat = 1 ∧
      Complete (serverOf [7]) s := by
  have hrun : transfers (serverOf [7]) (fun s => s.application.connection.blockNumber.toNat = 1) =
      true := by
    decide +kernel
  obtain ⟨s₀, s, hreach, hready, hfed, hcheck⟩ := reaches_of_transfers hrun
  have hblock := of_decide_eq_true hcheck
  obtain ⟨hnext, hcomplete⟩ := completed (by decide) hreach hready hfed
  exact ⟨s, hnext, hblock, (hcomplete hblock).mpr (by decide)⟩

/-- The one block of an empty file is taken, and the transfer goes on for ever. -/
theorem empty_file_incomplete :
    ∃ s₀ s, Reaches Op.exec (fun _ _ => True) (booted zeroApplication 0 fun _ => 0) s₀ ∧
      Ready (serverOf []) 15 s₀ ∧ Reaches Op.exec (Feeds (serverOf []) 15) s₀ s ∧
      s.application.connection.blockNumber.toNat = lastBlock 512 (serverOf []).file ∧
      s.application.connection.state = .read ∧ ¬ Complete (serverOf []) s := by
  have hrun : transfers (serverOf []) (fun s => s.application.connection.blockNumber.toNat = 1 ∧
      s.application.connection.state = .read) = true := by
    decide +kernel
  obtain ⟨s₀, s, hreach, hready, hfed, hcheck⟩ := reaches_of_transfers hrun
  obtain ⟨hblock, hread⟩ := of_decide_eq_true hcheck
  refine ⟨s₀, s, hreach, hready, hfed, hblock, hread, fun hcomplete => ?_⟩
  rw [hcomplete.done] at hread
  cases hread

end MiniIp.Guarantees.TransferCompletion
