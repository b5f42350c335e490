import MiniIp.Invariant.FileServer
import MiniIp.Invariant.Transcript

/-!
# The port that feeds a transfer

`try_read_data` (tftp.c:214) compares the source port of a datagram with the
port the OACK came from, unless that is 69. `senders_ip` is compared nowhere in
tftp.c, and `try_read_oack` (tftp.c:162-196) compares nothing. So a transfer is fed
by one port of any host (`fed_by_port`).
-/

set_option autoImplicit false

namespace MiniIp.Guarantees.ChosenServer

open MiniIp.Source MiniIp.Invariant MiniIp.Library.Runs MiniIp.Library.Wp

/-- The call has returned bytes, or has changed the state or the block number. -/
def Progresses (poll : Poll) : Prop :=
  poll.after.application.received ≠ poll.before.application.received ∨
    poll.after.application.connection.state ≠ poll.before.application.connection.state ∨
    poll.after.application.connection.blockNumber ≠ poll.before.application.connection.blockNumber

/-- The datagram is from another port than the server's, in the READ state. -/
def Foreign (connection : TftpConnection) (content : NetworkPacket) : Prop :=
  connection.state = .read ∧ connection.serverPort ≠ tftpInitialServerPort ∧
    connection.serverPort ≠ content.sourcePort

instance (connection : TftpConnection) (content : NetworkPacket) : Decidable (Foreign connection content) :=
  inferInstanceAs (Decidable (_ ∧ _ ∧ _))

/-- The datagrams that have been read, less the foreign ones. -/
def withoutForeign (b : Application) : List Reading → List Reading
  | [] => []
  | r :: past =>
    if Foreign (replay b past).connection r.content then withoutForeign b past else r :: withoutForeign b past

/-- What the state of a connection makes of a datagram at all. -/
def Heeded (connection : TftpConnection) (content : NetworkPacket) : Prop :=
  connection.state = .request ∧ 2 ≤ content.length ∨
    connection.state = .read ∧
      (connection.serverPort = tftpInitialServerPort ∨ connection.serverPort = content.sourcePort)

/-- Where bytes and changes come from. -/
structure FedByPort (start : Stack) (a : Transcript) : Prop where
  cause : ∀ poll ∈ a.polls, Progresses poll →
    ∃ content, poll.datagram = some content ∧ Heeded poll.before.application.connection content
  port : ∀ later poll earlier, a.polls = later ++ poll :: earlier →
    poll.before.application.connection.state = .read → ∃ oack ∈ readings earlier,
      oackStatus oack.content = .ok ∧ oack.content.sourcePort = poll.before.application.connection.serverPort
  less : SameProgress a.stack.application (replay start.application (withoutForeign start.application (readings a.polls)))

variable {application : Application} {time : Time} {entropy : ℕ → UInt32} {s start : Stack} {a : Transcript}
  {connection : TftpConnection} {content : NetworkPacket} {size : Int} {poll : Poll}

theorem foreign_left (h : Foreign connection content) : pollResult connection size (some content) = (.nothing, connection) := by
  rw [pollResult_read h.1]
  have hleft : ¬ TakenAsNext connection content := by
    intro htaken
    rcases htaken.port with hinitial | hsource
    · exact h.2.1 hinitial
    · exact h.2.2 hsource
  rw [polled, readData_left hleft]
  rfl

/-- What is not heeded changes nothing. -/
theorem unheeded_left (h : ¬ Heeded connection content) : pollResult connection size (some content) = (.nothing, connection) := by
  rcases running_or_over connection with hrequest | hread | hover
  · have hshort : content.length < 2 := by
      by_contra hlong
      exact h (.inl ⟨hrequest, by omega⟩)
    rw [pollResult_request hrequest, readOack, if_pos hshort]
    rfl
  · apply foreign_left
    refine ⟨hread, ?_, ?_⟩
    · intro hinitial
      exact h (.inr ⟨hread, .inl hinitial⟩)
    · intro hsource
      exact h (.inr ⟨hread, .inr hsource⟩)
  · exact pollResult_over hover

/-- A call that makes progress has read a datagram that is heeded. -/
theorem progress_heeded
    (h : SameProgress poll.after.application (afterReading poll.before.application poll.size poll.datagram))
    (hprogress : Progresses poll) :
    ∃ content, poll.datagram = some content ∧ Heeded poll.before.application.connection content := by
  by_contra hnone
  have hnothing : pollResult poll.before.application.connection poll.size poll.datagram =
      (.nothing, poll.before.application.connection) := by
    cases hread : poll.datagram with
    | none => exact pollResult_none _ _
    | some content =>
      apply unheeded_left
      intro hheeded
      exact hnone ⟨content, hread, hheeded⟩
  obtain ⟨⟨backoff, hconnection⟩, hreceived⟩ := h
  rw [afterReading, hnothing] at hconnection hreceived
  rcases hprogress with hbytes | hstate | hblock
  · apply hbytes
    simpa [TftpResult.nothing] using hreceived
  · apply hstate
    rw [hconnection]
  · apply hblock
    rw [hconnection]

/-- The replay of what is left comes equally far. -/
theorem replay_withoutForeign (b : Application) (past : List Reading) :
    replay b (withoutForeign b past) = replay b past := by
  induction past with
  | nil => rfl
  | cons r past ih =>
    rw [withoutForeign]
    split
    · next hforeign =>
      rw [ih, replay, afterReading, foreign_left hforeign]
      simp [TftpResult.nothing]
    · rw [replay, replay, ih]

theorem downloadFile_requests (filename : List UInt8) (serverIp : Ip) (s : Stack) :
    wp (downloadFile filename serverIp) (fun _ t => t.application.connection.state = .request) (fun _ _ => True) s := by
  unfold downloadFile tftpDownloadFile
  simp only [wp_bind, wp_get, wp_pure, wp_modify]
  apply wp_partial (wp_true _)
  intro _ t _
  trivial

/-- In the READ state the server's port is the one an OACK came from. -/
def PortLearned (connection : TftpConnection) (past : List Reading) : Prop :=
  connection.state = .read → ∃ oack ∈ past, oackStatus oack.content = .ok ∧ oack.content.sourcePort = connection.serverPort

/-- Once learned, the port stays. -/
theorem port_learned {r : Reading} {past : List Reading} (h : PortLearned connection past) :
    PortLearned (pollResult connection r.size (some r.content)).2 (r :: past) := by
  intro hread
  rcases running_or_over connection with hrequest | hreading | hover
  · rw [pollResult_request hrequest, readOack] at hread ⊢
    split at hread
    · simp [handleOack, hrequest] at hread
    · next hlong =>
      rw [if_neg hlong]
      split at hread
      · next hok =>
        rw [if_pos hok]
        exact ⟨r, List.mem_cons_self, hok, rfl⟩
      · next hother =>
        cases hstatus : oackStatus r.content with
        | ok => exact absurd hstatus hother
        | error => simp [handleOack, hstatus] at hread
        | retry => simp [handleOack, hstatus, hrequest] at hread
  · obtain ⟨oack, hmem, hok, hport⟩ := h hreading
    refine ⟨oack, List.mem_cons_of_mem _ hmem, hok, hport.trans ?_⟩
    rw [pollResult_read hreading, polled]
    have hkept := readData_connection connection r.size (some r.content)
    split
    · rw [hkept]
    · split
      · rw [hkept]
      · rw [hkept]
  · rw [pollResult_over hover] at hread ⊢
    rcases hover with hdone | herror
    · rw [hread] at hdone
      cases hdone
    · rw [hread] at herror
      cases herror

theorem replay_port_learned {b : Application} (h : b.connection.state ≠ .read) (past : List Reading) :
    PortLearned (replay b past).connection past := by
  induction past with
  | nil =>
    intro hread
    exact absurd hread h
  | cons r past ih => exact port_learned ih

/-- Every byte and every change of a download comes from a datagram of two bytes in the REQUEST state, or from one of
the OACK's port in the READ state, and the download is the same without the foreign datagrams. -/
theorem fed_by_port (hreached : Reaches Op.exec (fun _ _ => True) (booted application time entropy) s)
    {filename : List UInt8} {serverIp : Ip} (hstarted : downloadFile filename serverIp s = .ok () start)
    (h : Downloads start a) : FedByPort start a := by
  have hstart : Reaches Op.exec (fun _ _ => True) (booted application time entropy) start :=
    hreached.step (.downloadFile filename serverIp) trivial hstarted
  have hreplayed := Downloads.replayed hstart h
  constructor
  · intro poll hpoll hprogress
    obtain ⟨hbefore, hreturned⟩ := Downloads.returned hstart h poll hpoll
    exact progress_heeded (readFile_reads hbefore hreturned) hprogress
  · intro later poll earlier hsplit hread
    obtain ⟨backoff, hconnection⟩ := (hreplayed.before later poll earlier hsplit).connection
    have hrequests := downloadFile_requests filename serverIp s
    have hrequest := wp_ok hrequests hstarted
    have hlearned := replay_port_learned (b := start.application) (by rw [hrequest]; decide) (readings earlier)
    rw [hconnection] at hread ⊢
    exact hlearned hread
  · rw [replay_withoutForeign]
    exact hreplayed.now

/-- Every byte and every change comes from the server and from the port of the OACK. -/
def OnlyServer (serverIp : Ip) (a : Transcript) : Prop :=
  ∀ poll ∈ a.polls, Progresses poll → ∃ content, poll.datagram = some content ∧ content.sendersIp = serverIp ∧
    content.sourcePort = poll.after.application.connection.serverPort

/-- The datagrams of the server, of all that have been read. -/
def fromServer (serverIp : Ip) (past : List Reading) : List Reading :=
  past.filter fun r => r.content.sendersIp = serverIp

/-- The frame comes from 10.0.0.7 instead of 10.0.0.2. -/
def spoofed (frame : List UInt8) : List UInt8 := frame.set 29 7

/-- The server accepts the request of a download, and another host sends block 1 from the same port. -/
def oackThenSpoofed : List Op :=
  [.deliverUdp 0 2000 tftpClientPort (be16Bytes tftpOpcodeOack ++ oackOptions), .receive, .readFile 512,
    .deliver 1 60 (spoofed (udpFrame 2000 tftpClientPort [0, 3, 0, 1, 7])), .receive, .readFile 512]

/-- The stack in which the download from 10.0.0.2 starts. -/
def configured : List Op := [.setOurIp 0x0A000001, .setOurNetmask 0xFFFFFFFF]

theorem download_of_runs {check : Stack → Transcript → Bool} {ops : List Op}
    (hrun : runs Op.exec (fun _ _ => true) (downloadRuns (downloadFile [102, 0] 0x0A000002) check ops) configured
      (booted zeroApplication 0 fun _ => 0) = true) :
    ∃ s start a, Reaches Op.exec (fun _ _ => True) (booted zeroApplication 0 fun _ => 0) s ∧
      downloadFile [102, 0] 0x0A000002 s = .ok () start ∧ Downloads start a ∧ check start a = true := by
  obtain ⟨s, hreached, hdownload⟩ := reaches_of_runs (fun _ _ => True) .start (fun _ _ _ _ => trivial) hrun
  obtain ⟨start, a, hstarted, ha, hcheck⟩ := downloads_of_runs hdownload
  exact ⟨s, start, a, hreached, hstarted, ha, hcheck⟩

/-- A call of the transcript has returned bytes of a datagram from another host. -/
def spoofedBytes (serverIp : Ip) (a : Transcript) : Bool :=
  a.polls.any fun poll => poll.after.application.received ≠ poll.before.application.received &&
    poll.datagram.any fun content => content.sendersIp ≠ serverIp

theorem not_onlyServer {serverIp : Ip} (h : spoofedBytes serverIp a = true) : ¬ OnlyServer serverIp a := by
  intro honly
  obtain ⟨poll, hpoll, hspoofed⟩ := List.any_eq_true.mp h
  rw [Bool.and_eq_true, decide_eq_true_eq, Option.any_eq_true] at hspoofed
  obtain ⟨hbytes, content, hread, hother⟩ := hspoofed
  obtain ⟨content', hread', hserver, _⟩ := honly poll hpoll (.inl hbytes)
  rw [hread, Option.some.injEq] at hread'
  rw [← hread'] at hserver
  exact of_decide_eq_true hother hserver

/-- A byte of another host is returned, and without its datagram it would not be. -/
theorem other_host_feeds :
    ∃ s start a, Reaches Op.exec (fun _ _ => True) (booted zeroApplication 0 fun _ => 0) s ∧
      downloadFile [102, 0] 0x0A000002 s = .ok () start ∧ Downloads start a ∧ ¬ OnlyServer 0x0A000002 a ∧
      a.stack.application.received = [7] ∧
      (replay start.application (fromServer 0x0A000002 (readings a.polls))).received = [] := by
  have hrun : runs Op.exec (fun _ _ => true)
      (downloadRuns (downloadFile [102, 0] 0x0A000002) (fun start a => spoofedBytes 0x0A000002 a && (a.stack.application.received = [7] ∧
        (replay start.application (fromServer 0x0A000002 (readings a.polls))).received = [])) oackThenSpoofed)
      configured (booted zeroApplication 0 fun _ => 0) = true := by
    decide +kernel
  obtain ⟨s, start, a, hreached, hstarted, ha, hcheck⟩ := download_of_runs hrun
  rw [Bool.and_eq_true, decide_eq_true_eq] at hcheck
  exact ⟨s, start, a, hreached, hstarted, ha, not_onlyServer hcheck.1, hcheck.2⟩

/-- A datagram from another port of the server is foreign. -/
def oackThenOtherPort : List Op :=
  [.deliverUdp 0 2000 tftpClientPort (be16Bytes tftpOpcodeOack ++ oackOptions), .receive, .readFile 512,
    .deliverUdp 1 2001 tftpClientPort [0, 3, 0, 1, 7], .receive, .readFile 512,
    .deliverUdp 2 2000 tftpClientPort [0, 3, 0, 1, 8], .receive, .readFile 512]

theorem fed_by_port_one_block :
    ∃ start a, Downloads start a ∧ (readings a.polls).length = 3 ∧
      (withoutForeign start.application (readings a.polls)).length = 2 ∧ a.stack.application.received = [8] ∧
      FedByPort start a := by
  have hrun : runs Op.exec (fun _ _ => true)
      (downloadRuns (downloadFile [102, 0] 0x0A000002) (fun start a => (readings a.polls).length = 3 ∧
        (withoutForeign start.application (readings a.polls)).length = 2 ∧ a.stack.application.received = [8])
        oackThenOtherPort)
      configured (booted zeroApplication 0 fun _ => 0) = true := by
    decide +kernel
  obtain ⟨s, start, a, hreached, hstarted, ha, hcheck⟩ := download_of_runs hrun
  obtain ⟨hall, hless, hreceived⟩ := of_decide_eq_true hcheck
  exact ⟨start, a, ha, hall, hless, hreceived, fed_by_port hreached hstarted ha⟩

end MiniIp.Guarantees.ChosenServer
