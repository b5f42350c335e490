import MiniIp.Invariant.Transfer

/-!
# What a download returns is a prefix of the file

The client's queue holds messages of one server, lost, repeated, delayed and
reordered in any way. `try_read_data` (tftp.c:202-232) reads the opcode of a
datagram and does not look at it: it takes any datagram whose second word is the
number of the next block. An ERROR whose code is that number, or an OACK where it
is 25196, is returned as data of the file. In runs where no poll finds such a
datagram the bytes returned are a prefix of the file, and they come from DATA.
-/

set_option autoImplicit false

namespace MiniIp.Guarantees.TransferIntegrity

open MiniIp.Source MiniIp.Invariant MiniIp.Library.Runs MiniIp.Library.StopAndWait MiniIp.Library.Wp

/-- The queue of the client's port holds messages of the server. -/
def clientQueue (server : Server) (_ : UdpConnectionId) (port : Port) (_ : PacketId)
    (content : NetworkPacket) : Prop :=
  port = tftpClientPort → ∃ m, server.Sent m content

/-- The buffers of `tftp_read` hold at least a block, and it is called for a connection that
`tftp_download_file` has set up. -/
def Exchange (server : Server) (s : Stack) (op : Op) : Prop :=
  (op = .receive → Brings (clientQueue server) s) ∧ ∀ size, op = .readFile size →
    (512 ≤ size ∧ size < 2147483648) ∧ s.application.connection.clientPort = tftpClientPort

/-- A poll finds a message that is not DATA and that the code takes for the next block. -/
def FindsMisread (s : Stack) (op : Op) : Prop :=
  ∃ size content, op = .readFile size ∧ s.application.connection.state = .read ∧
    headDatagram s tftpClientPort = some content ∧
    MisreadAsData s.application.connection content

/-- The received bytes are the contents of DATA messages that have been taken from the queue. -/
def FromData (server : Server) (s : Stack) : Prop :=
  ∃ datagrams : List NetworkPacket,
    s.application.received = datagrams.flatMap (fun d => d.payload.drop 4) ∧
    ∀ d ∈ datagrams, (∃ i, server.Sent (.data i) d) ∧ ∃ p, .udpTaken tftpClientPort p d ∈ s.trace

/-- What the application has is the file up to the block it has come to. -/
structure Received (server : Server) (s : Stack) : Prop where
  upTo : s.application.connection.state = .read → (receiver s.application).UpTo 512 server.file
  requested : s.application.connection.state = .request → s.application.received = []
  isPrefix : s.application.received <+: server.file
  fromData : FromData server s

variable {server : Server} {s : Stack} {connection : TftpConnection} {time : Time}
  {entropy : Nat → UInt32} {residue : Nat → Mac}

theorem FromData.later {t : Stack} (h : FromData server s)
    (happlication : t.application.received = s.application.received) (htrace : s.trace <:+ t.trace) :
    FromData server t := by
  obtain ⟨datagrams, hreceived, hall⟩ := h
  refine ⟨datagrams, happlication.trans hreceived, fun d hd => ?_⟩
  obtain ⟨hsent, p, hp⟩ := hall d hd
  exact ⟨hsent, p, htrace.subset hp⟩

/-- The datagram at the head of the client's queue is a message of the server. -/
theorem head_sent (h : Intact False (clientQueue server) s) {content : NetworkPacket}
    (hhead : headDatagram s tftpClientPort = some content) : ∃ m, server.Sent m content := by
  obtain ⟨_, _, hs⟩ := h
  rw [headDatagram, Option.map_eq_some_iff] at hhead
  obtain ⟨⟨c, p⟩, hqueue, rfl⟩ := hhead
  obtain ⟨_, hport, hcons⟩ := queueHead_some hqueue
  exact hs.udpContent c p (by rw [hcons]; exact List.mem_cons_self) hport

/-- Nothing is appended. -/
theorem Received.unchanged {t : Stack} (h : Received server s)
    (hconnection : t.application.connection.state = .read → s.application.connection.state = .read ∧
      t.application.connection.blockNumber = s.application.connection.blockNumber)
    (hrequest : t.application.connection.state = .request →
      s.application.connection.state = .request)
    (hreceived : t.application.received = s.application.received) (htrace : s.trace <:+ t.trace) :
    Received server t where
  upTo hstate := by
    obtain ⟨hread, hblock⟩ := hconnection hstate
    have hupTo := h.upTo hread
    rw [receiver, Receiver.UpTo] at hupTo ⊢
    rw [hreceived, hblock]
    exact hupTo
  requested hstate := hreceived.trans (h.requested (hrequest hstate))
  isPrefix := hreceived ▸ h.isPrefix
  fromData := h.fromData.later hreceived htrace

/-- A poll in the READ state appends the next block, or nothing. -/
theorem readFile_received (hintact : Intact False (clientQueue server) s) (h : Received server s)
    (hfile : lastBlock 512 server.file ≤ 65535) {size : Int}
    (hsize : 512 ≤ size ∧ size < 2147483648)
    (hport : s.application.connection.clientPort = tftpClientPort)
    (hclear : ¬ FindsMisread s (.readFile size)) (hread : s.application.connection.state = .read) :
    wp (readFile size) (fun _ t => Received server t) (fun _ _ => True) s := by
  obtain ⟨limit, lost, hs⟩ := hintact
  apply wp_partial (readFile_polls size hs hread)
  intro _ t hpost
  obtain ⟨⟨backoff, happlication⟩, htook, _, htrace, _⟩ := hpost
  rw [hport] at happlication htook
  have hnothing : TakesNothing s.application.connection
      (polled s.application.connection size (headDatagram s tftpClientPort)) → Received server t := by
    intro htakes
    rw [htakes.connection, htakes.bytes] at happlication
    apply h.unchanged
    · intro _
      simp [happlication, hread]
    · intro hstate
      simpa [happlication] using hstate
    · simp [happlication]
    · exact htrace
  cases hhead : headDatagram s tftpClientPort with
  | none =>
    rw [hhead] at hnothing
    exact hnothing ⟨rfl, rfl⟩
  | some content =>
    obtain ⟨m, hsent⟩ := head_sent ⟨limit, lost, hs⟩ hhead
    have hclear' : ¬ MisreadAsData s.application.connection content := fun hmisread =>
      hclear ⟨size, content, rfl, hread, hhead, hmisread⟩
    rcases polled_message size hsent hclear' hfile hsize with htakes | ⟨i, rfl, htakes⟩
    · rw [hhead] at hnothing
      exact hnothing htakes
    · obtain ⟨hnext, hbytes, hafter⟩ := htakes
      rw [hhead, hafter, hbytes] at happlication
      have hi := toNat_ofNat_block hsent.offered.2 hfile
      have hupTo : Receiver.UpTo 512 server.file
          ⟨i, s.application.received ++ block 512 server.file i⟩ := by
        have haccept := (h.upTo hread).accept i fun _ => rfl
        rw [Receiver.accept, if_pos (show i = (receiver s.application).taken + 1 from hnext)] at haccept
        exact haccept
      obtain ⟨datagrams, hdatagrams, hall⟩ := h.fromData
      obtain ⟨p, hp⟩ := htook.taken content hhead
      constructor
      · intro _
        simpa [receiver, happlication, hi] using hupTo
      · intro hstate
        simp only [happlication] at hstate
        split at hstate
        · cases hstate
        · simp [hread] at hstate
      · simpa [happlication] using hupTo.isPrefix
      · refine ⟨datagrams ++ [content], ?_, fun d hd => ?_⟩
        · have hpayload : content.payload.drop 4 = block 512 server.file i := by
            rw [hsent.payload]
            rfl
          simp [happlication, hdatagrams, hpayload]
        · rcases List.mem_append.mp hd with hold | hnew
          · obtain ⟨hdata, q, hq⟩ := hall d hold
            exact ⟨hdata, q, htrace.subset hq⟩
          · rw [List.mem_singleton.mp hnew]
            exact ⟨⟨i, hsent⟩, p, hp⟩

/-- After the end of a transfer a poll does nothing. -/
theorem idle_received (h : Received server s) {size : Int}
    (hidle : tftpRead s.application.connection size =
      pure (.nothing, s.application.connection))
    (hstate : s.application.connection.state ≠ .read ∧ s.application.connection.state ≠ .request) :
    wp (readFile size) (fun _ t => Received server t) (fun _ _ => True) s := by
  unfold readFile
  simp only [wp_bind, wp_get, hidle, wp_pure, wp_modify]
  apply h.unchanged
  · intro hread
    exact absurd hread hstate.1
  · intro hrequest
    exact absurd hrequest hstate.2
  · simp [TftpResult.nothing]
  · exact List.suffix_rfl

/-- Every poll keeps what has been received in order. -/
theorem poll_received (hintact : Intact False (clientQueue server) s) (h : Received server s)
    (hfile : lastBlock 512 server.file ≤ 65535) {size : Int}
    (hsize : 512 ≤ size ∧ size < 2147483648)
    (hport : s.application.connection.clientPort = tftpClientPort)
    (hclear : ¬ FindsMisread s (.readFile size)) :
    wp (readFile size) (fun _ t => Received server t) (fun _ _ => True) s := by
  cases hstate : s.application.connection.state with
  | read => exact readFile_received hintact h hfile hsize hport hclear hstate
  | request =>
    unfold readFile
    simp only [wp_bind, wp_get, wp_modify]
    apply wp_partial (wp_and (tftpRead_requests hstate) ((tftpRead_spares _ size : Spares False _) s))
    intro out t hpost
    obtain ⟨⟨hout, hdone, hblock⟩, hframe⟩ := hpost
    obtain ⟨happlication, htrace, _⟩ := (.ofClient hframe : ApplicationFrame True s t)
    have hempty := h.requested hstate
    have hreceived : t.application.received ++ out.1.bytes = [] := by
      rw [happlication, hempty, hout]
      rfl
    constructor
    · intro hread
      simp [receiver, hreceived, hblock hread, Receiver.UpTo]
    · intro _
      exact hreceived
    · simp [hreceived]
    · exact h.fromData.later (hreceived.trans hempty.symm) htrace
  | done => exact idle_received h (by simp [tftpRead, hstate]) (by simp [hstate])
  | error => exact idle_received h (by simp [tftpRead, hstate]) (by simp [hstate])

/-- A new download starts with nothing. -/
theorem downloadFile_received (filename : List UInt8) (serverIp : Ip) :
    wp (downloadFile filename serverIp) (fun _ t => Received server t) (fun _ _ => True) s := by
  unfold downloadFile tftpDownloadFile
  simp only [wp_bind, wp_get, wp_pure, wp_modify]
  apply wp_partial (wp_true _)
  intro _ t _
  constructor
  · intro hread
    simp [Application.start] at hread
  · intro _
    rfl
  · simp [Application.start]
  · exact ⟨[], rfl, by simp⟩

/-- Every operation of an exchange in which no datagram is misread. -/
theorem exec_received (hintact : Intact False (clientQueue server) s) (h : Received server s)
    (hfile : lastBlock 512 server.file ≤ 65535) {op : Op} (hexchange : Exchange server s op)
    (hclear : ¬ FindsMisread s op) :
    wp op.exec (fun _ t => Received server t) (fun _ _ => True) s := by
  by_cases hwrites : Op.WritesApplication op
  · cases op with
    | readFile size =>
      obtain ⟨hsize, hport⟩ := hexchange.2 size rfl
      exact poll_received hintact h hfile hsize hport hclear
    | downloadFile filename serverIp => exact downloadFile_received filename serverIp
    | _ => exact absurd hwrites id
  · apply wp_partial ((exec_keepsApplication hwrites fun _ => id : KeepsApplication False _) s)
    intro _ t ht
    obtain ⟨happlication, htrace, _⟩ := ht
    apply h.unchanged
    · intro hread
      rw [happlication] at hread ⊢
      exact ⟨hread, rfl⟩
    · intro hrequest
      rw [happlication] at hrequest
      exact hrequest
    · rw [happlication]
    · exact htrace

/-- In every run in which no poll finds a datagram that is misread, what has been received is a
prefix of the file, and comes from DATA. -/
theorem received_prefix (hfile : lastBlock 512 server.file ≤ 65535)
    (hidle : connection.state ≠ .read)
    (h : Reaches Op.exec (fun s op => Exchange server s op ∧ ¬ FindsMisread s op)
      (booted (.start residue connection) time entropy) s) :
    s.application.received <+: server.file ∧ FromData server s := by
  have hall : Intact False (clientQueue server) s ∧ Received server s := by
    apply h.invariant (I := fun s => Intact False (clientQueue server) s ∧ Received server s)
    · have hstart : (booted (.start residue connection) time entropy).application = .start residue connection :=
        booted_fresh.application
      refine ⟨⟨0, [], booted_sound⟩, ?_, fun _ => ?_, ?_, [], ?_, by simp⟩
      · intro hread
        rw [hstart] at hread
        exact absurd hread hidle
      · rw [hstart]
        rfl
      · rw [hstart]
        exact List.nil_prefix
      · rw [hstart]
        rfl
    · intro s op _ hs met
      obtain ⟨hexchange, hclear⟩ := met
      have hkept := exec_intact hs.1 (fun w => w.elim) hexchange.1
      have hreceived := exec_received hs.1 hs.2 hfile hexchange hclear
      exact wp_partial (wp_and hkept hreceived) fun _ _ ht => ht
  exact ⟨hall.2.isPrefix, hall.2.fromData⟩

/-- A server with a file of one byte. -/
def oneByteServer : Server := ⟨0x0A000002, 2000, [7]⟩

/-- Check an operation: what arrives is one of the messages, and every poll is for DATA. -/
def exchangeGuard (server : Server) (messages : List Message) (onlyData : Bool) (s : Stack) : Op → Bool
  | .receive => (nextFrame s).all fun frame =>
      datagramPort frame ≠ tftpClientPort ∨ ((datagram frame).sendersIp = server.ip ∧
        (datagram frame).sourcePort = server.port ∧
        ∃ m ∈ messages, (datagram frame).payload = server.bytes m)
  | .readFile size => ((512 ≤ size ∧ size < 2147483648) ∧
      s.application.connection.clientPort = tftpClientPort) ∧
      (onlyData = true → s.application.connection.state = .read →
        (headDatagram s tftpClientPort).all fun content =>
          readBe16 content.data content.index = tftpOpcodeData)
  | _ => true

theorem exchange_of_guard {messages : List Message} (hoffers : ∀ m ∈ messages, server.Offers m)
    {onlyData : Bool} {op : Op} (h : exchangeGuard server messages onlyData s op = true) :
    Exchange server s op ∧ (onlyData = true → ¬ FindsMisread s op) := by
  cases op with
  | receive =>
    refine ⟨⟨fun _ frame hframe _ _ _ p hport => ?_, by simp⟩, fun _ hfinds => ?_⟩
    · simp only [exchangeGuard, hframe, Option.all_some] at h
      rcases of_decide_eq_true h with hother | ⟨hip, hsource, m, hm, hpayload⟩
      · exact absurd hport hother
      · exact ⟨m, hip, hsource, hpayload, hoffers m hm⟩
    · obtain ⟨_, _, hop, _⟩ := hfinds
      cases hop
  | readFile size =>
    obtain ⟨hcall, hdata⟩ := of_decide_eq_true h
    refine ⟨⟨by simp, fun size' hsize => ?_⟩, fun honly hfinds => ?_⟩
    · cases hsize
      exact hcall
    · obtain ⟨_, content, _, hstate, hhead, hopcode, _⟩ := hfinds
      have hread := hdata honly hstate
      rw [hhead] at hread
      exact hopcode (of_decide_eq_true hread)
  | _ => exact ⟨⟨by simp, by simp⟩, fun _ hfinds => by simp [FindsMisread] at hfinds⟩

/-- The request, the OACK, and one more message. -/
def afterOack (server : Server) (message : Message) : List Op :=
  [.downloadFile [102] 0x0A000002, .deliverUdp 0 2000 tftpClientPort (server.bytes .oack), .receive,
    .readFile 512, .deliverUdp 1 2000 tftpClientPort (server.bytes message), .receive, .readFile 512]

/-- The whole file, of one block. -/
theorem received_prefix_one_block :
    ∃ s, Reaches Op.exec (fun s op => Exchange oneByteServer s op ∧ ¬ FindsMisread s op)
      (booted (.start zeroApplication.residue zeroApplication.connection) 0 fun _ => 0) s ∧
      s.application.received = [7] ∧ s.application.received <+: oneByteServer.file ∧
      FromData oneByteServer s := by
  have hrun : runs Op.exec (exchangeGuard oneByteServer [.oack, .data 1] true)
      (fun s => s.application.received = [7])
      (afterOack oneByteServer (.data 1)) (booted (.start zeroApplication.residue zeroApplication.connection) 0 fun _ => 0) =
        true := by
    decide +kernel
  obtain ⟨s, hreach, hcheck⟩ := reaches_of_runs
    (fun s op => Exchange oneByteServer s op ∧ ¬ FindsMisread s op) .start
    (fun op _ s hguard => (exchange_of_guard (by decide) hguard).imp_right fun h => h rfl) hrun
  exact ⟨s, hreach, of_decide_eq_true hcheck, received_prefix (by decide) (by decide) hreach⟩

/-- An ERROR with code 1, which is the number of the first block, is returned as the file. -/
theorem error_received :
    ∃ s, Reaches Op.exec (Exchange oneByteServer)
      (booted (.start zeroApplication.residue zeroApplication.connection) 0 fun _ => 0) s ∧
      s.application.received = [120, 0] ∧ ¬ s.application.received <+: oneByteServer.file := by
  have hrun : runs Op.exec (exchangeGuard oneByteServer [.oack, .error 1 [120, 0]] false)
      (fun s => s.application.received = [120, 0])
      (afterOack oneByteServer (.error 1 [120, 0]))
      (booted (.start zeroApplication.residue zeroApplication.connection) 0 fun _ => 0) = true := by
    decide +kernel
  obtain ⟨s, hreach, hcheck⟩ := reaches_of_runs (Exchange oneByteServer) .start
    (fun op _ s hguard => (exchange_of_guard (by decide) hguard).1) hrun
  have hreceived := of_decide_eq_true hcheck
  refine ⟨s, hreach, hreceived, ?_⟩
  rw [hreceived]
  decide

end MiniIp.Guarantees.TransferIntegrity
