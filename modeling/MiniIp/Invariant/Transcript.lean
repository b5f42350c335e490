import MiniIp.Invariant.Poll

/-!
# The transcript of a download

`pollResult` says in every state what `tftp_read` returns and what it makes of the connection, but for the backoff.
Beside the stack runs the list of its calls so far, so that a download can be replayed from the datagrams it has read.
The lemmas are about calls that return, from intact states.
-/

set_option autoImplicit false

namespace MiniIp.Invariant

open MiniIp.Source MiniIp.Library.Runs MiniIp.Library.Wp

/-- `try_read_oack` on the datagram it takes. -/
def readOack (connection : TftpConnection) : Option NetworkPacket → TftpStatus × TftpConnection
  | none => (.retry, connection)
  | some p =>
    if p.length < 2 then (.retry, connection)
    else if oackStatus p = .ok then (.ok, { connection with serverPort := p.sourcePort })
    else (oackStatus p, connection)

/-- `tftp_read`, but for the backoff. -/
def pollResult (connection : TftpConnection) (size : Int) (head : Option NetworkPacket) : TftpResult × TftpConnection :=
  match connection.state with
  | .request => (.nothing, handleOack (readOack connection head))
  | .read => polled connection size head
  | .done => (.nothing, connection)
  | .error => (.nothing, connection)

/-- The two connections differ in their backoff at most. -/
def SameTransfer (connection connection' : TftpConnection) : Prop :=
  ∃ backoff, connection = { connection' with backoff := backoff }

variable {W : Prop} {U : QueueContent} {limit : ℕ} {held : List PacketId} {s t : Stack}
  {connection connection' : TftpConnection} {size : Int} {head : Option NetworkPacket}

theorem SameTransfer.refl (connection : TftpConnection) : SameTransfer connection connection := ⟨connection.backoff, rfl⟩

/-- What is sent on a timeout leaves the queue as it is. -/
theorem sentOnTimeout {destPort : Port} {bytes : List UInt8} (hsize : W → bytes.length ≤ 880)
    (h : Sound W U limit held s) :
    wp (tftpSendOnTimeout connection (sendTftpPacket connection destPort bytes))
      (fun c t => SameTransfer c connection ∧ t.udp = s.udp ∧
        headDatagram t connection.clientPort = headDatagram s connection.clientPort)
      (fun _ _ => True) s := by
  unfold tftpSendOnTimeout nextTftpBackoff
  simp only [wp_bind, wp_getTime, wp_ite, wp_pure, wp_random]
  split
  · have hsend := (sendTftpPacket_keeps connection destPort bytes (le_refl _) hsize).queued
      (sendTftpPacket_sends _ _ _) h
    apply wp_partial hsend
    intro _ t ht
    obtain ⟨_, hframe, hcontent⟩ := ht
    exact ⟨⟨_, rfl⟩, hframe.udp, headDatagram_of_kept (t := t.draw) hframe.udp _ hcontent⟩
  · exact ⟨.refl connection, by simp⟩

theorem tryReadOack_reads (h : UdpTable limit s.udp) :
    wp (tryReadOack connection) (fun out _ => out = readOack connection (headDatagram s connection.clientPort))
      (fun _ _ => True) s := by
  unfold tryReadOack
  rw [wp_bind, wp_udpReceiveZeroCopy h]
  split
  · next hhead =>
    have hnone : headDatagram s connection.clientPort = none := by simp [headDatagram, hhead]
    rw [wp_pure, hnone, readOack]
  · next c p hhead =>
    have hsome : headDatagram s connection.clientPort = some (s.packets p) := by simp [headDatagram, hhead]
    have hcontent : (dequeued s connection.clientPort c p).packets p = s.packets p := rfl
    simp only [wp_bind, wp_getPacket, wp_ite, wp_pure, wp_freeNetworkPacket, hsome, readOack, hcontent]
    split
    · rfl
    · split
      · next hok =>
        rw [if_pos hok]
        rfl
      · next hother =>
        rw [if_neg hother]
        rfl

theorem readOack_backoff (h : SameTransfer connection connection') :
    SameTransfer (handleOack (readOack connection head)) (handleOack (readOack connection' head)) := by
  obtain ⟨backoff, rfl⟩ := h
  cases head with
  | none => exact ⟨backoff, rfl⟩
  | some p =>
    simp only [readOack]
    split
    · exact ⟨backoff, rfl⟩
    · split
      · exact ⟨_, rfl⟩
      · cases oackStatus p with
        | ok => exact ⟨_, rfl⟩
        | error => exact ⟨backoff, rfl⟩
        | retry => exact ⟨backoff, rfl⟩

theorem tftpRead_asks (size : Int) (h : Sound False U limit held s) (hstate : connection.state = .request) :
    wp (tftpRead connection size)
      (fun out _ => out.1 = .nothing ∧
        SameTransfer out.2 (handleOack (readOack connection (headDatagram s connection.clientPort))))
      (fun _ _ => True) s := by
  unfold tftpRead tftpReadRequestState sendTftpRequest
  rw [hstate]
  simp only [wp_bind, wp_pure]
  apply wp_next (sentOnTimeout (fun w => w.elim) h)
  intro c t ht
  obtain ⟨⟨backoff, rfl⟩, hudp, hhead⟩ := ht
  have htable : UdpTable limit t.udp := hudp ▸ h.udp
  apply wp_next (tryReadOack_reads htable)
  intro out u hout
  rw [hout]
  refine ⟨trivial, ?_⟩
  show SameTransfer (handleOack (readOack _ (headDatagram t connection.clientPort))) _
  rw [hhead]
  exact readOack_backoff ⟨backoff, rfl⟩

theorem pollResult_request (h : connection.state = .request) :
    pollResult connection size head = (.nothing, handleOack (readOack connection head)) := by
  simp only [pollResult, h]

theorem pollResult_read (h : connection.state = .read) :
    pollResult connection size head = polled connection size head := by
  simp only [pollResult, h]

/-- A transfer that is over stays as it is. -/
theorem pollResult_over (h : connection.state = .done ∨ connection.state = .error) :
    pollResult connection size head = (.nothing, connection) := by
  rcases h with hdone | herror
  · simp only [pollResult, hdone]
  · simp only [pollResult, herror]

theorem tftpRead_over (h : connection.state = .done ∨ connection.state = .error) :
    wp (tftpRead connection size) (fun out _ => out = (.nothing, connection)) (fun _ _ => True) s := by
  unfold tftpRead
  rcases h with hdone | herror
  · simp only [hdone, wp_pure]
  · simp only [herror, wp_pure]

theorem running_or_over (connection : TftpConnection) :
    connection.state = .request ∨ connection.state = .read ∨ connection.state = .done ∨ connection.state = .error := by
  cases connection.state with
  | request => exact .inl rfl
  | read => exact .inr (.inl rfl)
  | done => exact .inr (.inr (.inl rfl))
  | error => exact .inr (.inr (.inr rfl))

/-- What a poll returns depends on the connection and on the head of the queue. -/
theorem tftpRead_result (size : Int) (h : Sound False U limit held s) :
    wp (tftpRead connection size)
      (fun out _ => out.1 = (pollResult connection size (headDatagram s connection.clientPort)).1 ∧
        SameTransfer out.2 (pollResult connection size (headDatagram s connection.clientPort)).2)
      (fun _ _ => True) s := by
  rcases running_or_over connection with hrequest | hread | hover
  · rw [pollResult_request hrequest]
    exact tftpRead_asks size h hrequest
  · rw [pollResult_read hread]
    apply wp_next (tftpRead_polls size h hread)
    intro out t ht
    exact ⟨ht.1, ht.2.1⟩
  · rw [pollResult_over hover]
    apply wp_next (tftpRead_over hover)
    intro out t ht
    rw [ht]
    exact ⟨rfl, .refl connection⟩

theorem polled_backoff (size : Int) (head : Option NetworkPacket) (backoff : Backoff) :
    polled { connection with backoff := backoff } size head =
      ((polled connection size head).1, { (polled connection size head).2 with backoff := backoff }) := by
  simp only [polled, readData_backoff]
  split
  · rfl
  · split
    · rfl
    · rfl

/-- The result does not depend on the backoff. -/
theorem pollResult_same (size : Int) (head : Option NetworkPacket) (h : SameTransfer connection connection') :
    (pollResult connection size head).1 = (pollResult connection' size head).1 ∧
      SameTransfer (pollResult connection size head).2 (pollResult connection' size head).2 := by
  have hstate : connection.state = connection'.state := by
    obtain ⟨backoff, rfl⟩ := h
    rfl
  rcases running_or_over connection' with hrequest | hread | hover
  · rw [pollResult_request hrequest, pollResult_request (hstate.trans hrequest)]
    exact ⟨rfl, readOack_backoff h⟩
  · rw [pollResult_read hread, pollResult_read (hstate.trans hread)]
    obtain ⟨backoff, rfl⟩ := h
    rw [polled_backoff]
    exact ⟨rfl, backoff, rfl⟩
  · rw [pollResult_over hover, pollResult_over (hstate ▸ hover)]
    exact ⟨rfl, h⟩

/-- Where there is no datagram, nothing happens. -/
theorem pollResult_none (connection : TftpConnection) (size : Int) :
    pollResult connection size none = (.nothing, connection) := by
  rcases running_or_over connection with hrequest | hread | hover
  · rw [pollResult_request hrequest]
    rfl
  · rw [pollResult_read hread]
    rfl
  · exact pollResult_over hover

/-- One call of `tftp_read`: the stack before and after it, and the size of the caller's buffer. -/
structure Poll where
  before : Stack
  size : Int
  after : Stack

/-- The stack, and the calls of `tftp_read` so far, the newest first. -/
structure Transcript where
  stack : Stack
  polls : List Poll

def Transcript.exec (op : Op) : EStateM Halt Transcript Unit := do
  let before := (← get).stack
  onPart Transcript.stack (fun s a => { a with stack := s }) op.exec
  match op with
  | .readFile size => modify fun a => { a with polls := ⟨before, size, a.stack⟩ :: a.polls }
  | _ => pure ()

/-- No other download is started. -/
def SameDownload (_ : Transcript) : Op → Prop
  | .downloadFile .. => False
  | _ => True

/-- The same, computed. -/
def sameDownloadGuard : Op → Bool
  | .downloadFile .. => false
  | _ => true

theorem sameDownload_of_guard {op : Op} (a : Transcript) (h : sameDownloadGuard op = true) : SameDownload a op := by
  cases op with
  | downloadFile filename serverIp => cases h
  | _ => trivial

/-- What may have happened from `start` on. -/
def Downloads (start : Stack) : Transcript → Prop := Reaches Transcript.exec SameDownload ⟨start, []⟩

/-- Compute a download that begins with a call. -/
def downloadRuns (first : Net Unit) (check : Stack → Transcript → Bool) (ops : List Op) (s : Stack) : Bool :=
  returnsWith (fun start => runs Transcript.exec (fun _ op => sameDownloadGuard op) (check start) ops ⟨start, []⟩) first s

theorem downloads_of_runs {first : Net Unit} {check : Stack → Transcript → Bool} {ops : List Op}
    (h : downloadRuns first check ops s = true) :
    ∃ start a, first s = .ok () start ∧ Downloads start a ∧ check start a = true := by
  obtain ⟨_, start, hfirst, hpolls⟩ := returns_of_wp (wp_of_returnsWith h)
  obtain ⟨a, ha, hcheck⟩ := reaches_of_runs SameDownload .start (fun _ _ _ => sameDownload_of_guard _) hpolls
  exact ⟨start, a, hfirst, ha, hcheck⟩

/-- The application and what it has received after a call. -/
theorem readFile_result (size : Int) (h : Sound False U limit held s) :
    wp (readFile size)
      (fun _ t => SameTransfer t.application.connection (pollResult s.application.connection size
          (headDatagram s s.application.connection.clientPort)).2 ∧
        t.application.received = s.application.received ++ (pollResult s.application.connection size
          (headDatagram s s.application.connection.clientPort)).1.bytes)
      (fun _ _ => True) s := by
  unfold readFile
  simp only [wp_bind, wp_get, wp_modify]
  apply wp_partial (wp_and (tftpRead_result size h) ((tftpRead_spares _ size : Spares False _) s))
  intro out t hpost
  obtain ⟨⟨hout, hconnection⟩, hframe⟩ := hpost
  refine ⟨hconnection, ?_⟩
  rw [hout, hframe.application]

variable {application : Application} {time : Time} {entropy : ℕ → UInt32} {start : Stack} {a : Transcript} {poll : Poll}

/-- The induction over a download: other operations leave the application alone. -/
theorem Downloads.induct {I : Transcript → Prop}
    (hstart : Reaches Op.exec (fun _ _ => True) (booted application time entropy) start) (h : Downloads start a)
    (base : I ⟨start, []⟩)
    (other : ∀ a t, I a → t.application = a.stack.application → I ⟨t, a.polls⟩)
    (poll : ∀ a size t, Reaches Op.exec (fun _ _ => True) (booted application time entropy) a.stack → I a →
      readFile size a.stack = .ok () t → I ⟨t, ⟨a.stack, size, t⟩ :: a.polls⟩) :
    Reaches Op.exec (fun _ _ => True) (booted application time entropy) a.stack ∧ I a := by
  apply h.invariant (I := fun a => Reaches Op.exec (fun _ _ => True) (booted application time entropy) a.stack ∧ I a)
  · exact ⟨hstart, base⟩
  · intro a op _ ha met
    obtain ⟨hreached, hI⟩ := ha
    unfold Transcript.exec
    simp only [wp_bind, wp_get, wp_onPart]
    have hnext : wp op.exec (fun _ t => Reaches Op.exec (fun _ _ => True) (booted application time entropy) t)
        (fun _ _ => True) a.stack := hreached.next trivial
    by_cases hwrites : Op.WritesApplication op
    · cases op with
      | readFile size =>
        apply wp_partial (wp_and hnext (wp_self _ _))
        intro _ t ht
        exact ⟨ht.1, poll a size t hreached hI ht.2⟩
      | downloadFile filename serverIp => exact absurd met id
      | _ => exact absurd hwrites id
    · apply wp_partial (wp_and hnext ((exec_keepsApplication hwrites fun _ => id : KeepsApplication False _) a.stack))
      intro _ t ht
      have hkept := other a t hI ht.2.application
      cases op with
      | readFile size => exact absurd trivial hwrites
      | _ => exact ⟨ht.1, hkept⟩

/-- The datagram that the call has read. -/
def Poll.datagram (poll : Poll) : Option NetworkPacket :=
  if poll.before.application.connection.state = .request ∨ poll.before.application.connection.state = .read then
    headDatagram poll.before poll.before.application.connection.clientPort
  else none

/-- The two applications have come equally far. -/
structure SameProgress (b b' : Application) : Prop where
  connection : SameTransfer b.connection b'.connection
  received : b.received = b'.received

/-- What becomes of an application that reads a datagram, or finds none. -/
def afterReading (b : Application) (size : Int) (datagram : Option NetworkPacket) : Application :=
  ⟨(pollResult b.connection size datagram).2, b.received ++ (pollResult b.connection size datagram).1.bytes, b.residue⟩

/-- A datagram that has been read, and the size of the buffer it was read with. -/
structure Reading where
  size : Int
  content : NetworkPacket

def Poll.reading (poll : Poll) : Option Reading := poll.datagram.map fun content => ⟨poll.size, content⟩

/-- The datagrams that have been read, the newest first. -/
def readings (polls : List Poll) : List Reading := polls.filterMap Poll.reading

/-- The application after it has read these datagrams, the newest first. -/
def replay (b : Application) : List Reading → Application
  | [] => b
  | r :: past => afterReading (replay b past) r.size (some r.content)

variable {b b' : Application}

theorem SameProgress.refl (b : Application) : SameProgress b b := ⟨.refl _, rfl⟩

theorem SameProgress.reads (h : SameProgress b b') (size : Int) (datagram : Option NetworkPacket) :
    SameProgress (afterReading b size datagram) (afterReading b' size datagram) := by
  obtain ⟨hresult, hconnection⟩ := pollResult_same size datagram h.connection
  refine ⟨hconnection, ?_⟩
  rw [afterReading, afterReading, h.received, hresult]

theorem SameTransfer.trans {connection'' : TftpConnection} (h : SameTransfer connection connection')
    (h' : SameTransfer connection' connection'') : SameTransfer connection connection'' := by
  obtain ⟨backoff, rfl⟩ := h
  obtain ⟨backoff', rfl⟩ := h'
  exact ⟨backoff, rfl⟩

theorem SameTransfer.symm (h : SameTransfer connection connection') : SameTransfer connection' connection := by
  obtain ⟨backoff, rfl⟩ := h
  exact ⟨connection'.backoff, rfl⟩

theorem SameProgress.trans {b'' : Application} (h : SameProgress b b') (h' : SameProgress b' b'') : SameProgress b b'' :=
  ⟨h.connection.trans h'.connection, h.received.trans h'.received⟩

theorem SameProgress.symm (h : SameProgress b b') : SameProgress b' b := ⟨h.connection.symm, h.received.symm⟩

/-- The call has made of the application what its datagram makes of it. -/
theorem readFile_reads (hreached : Reaches Op.exec (fun _ _ => True) (booted application time entropy) poll.before)
    (hreturned : readFile poll.size poll.before = .ok () poll.after) :
    SameProgress poll.after.application (afterReading poll.before.application poll.size poll.datagram) := by
  obtain ⟨_, _, hs⟩ := reaches_intact False hreached fun w => w.elim
  obtain ⟨hconnection, hreceived⟩ := wp_ok (readFile_result poll.size hs) hreturned
  have hread : pollResult poll.before.application.connection poll.size poll.datagram =
      pollResult poll.before.application.connection poll.size
        (headDatagram poll.before poll.before.application.connection.clientPort) := by
    rw [Poll.datagram]
    split
    · rfl
    · next hstate =>
      rw [not_or] at hstate
      rcases running_or_over poll.before.application.connection with hrequest | hread | hover
      · exact absurd hrequest hstate.1
      · exact absurd hread hstate.2
      · rw [pollResult_over hover, pollResult_over hover]
  constructor
  · rw [afterReading, hread]
    exact hconnection
  · rw [afterReading, hread]
    exact hreceived

/-- Every call in the transcript has returned in a reachable state. -/
theorem Downloads.returned (hstart : Reaches Op.exec (fun _ _ => True) (booted application time entropy) start)
    (h : Downloads start a) : ∀ poll ∈ a.polls,
      Reaches Op.exec (fun _ _ => True) (booted application time entropy) poll.before ∧
        readFile poll.size poll.before = .ok () poll.after := by
  apply (Downloads.induct hstart h (I := fun a => ∀ poll ∈ a.polls,
    Reaches Op.exec (fun _ _ => True) (booted application time entropy) poll.before ∧
      readFile poll.size poll.before = .ok () poll.after) ?_ ?_ ?_).2
  · intro poll hpoll
    cases hpoll
  · intro a t ha _
    exact ha
  · intro a size t hreached ha hreturned poll hpoll
    rcases List.mem_cons.mp hpoll with rfl | hearlier
    · exact ⟨hreached, hreturned⟩
    · exact ha poll hearlier

/-- The stack after a download, and the one before each of its calls, are the replay of the datagrams read so far. -/
structure Replayed (start : Stack) (a : Transcript) : Prop where
  now : SameProgress a.stack.application (replay start.application (readings a.polls))
  before : ∀ later poll earlier, a.polls = later ++ poll :: earlier →
    SameProgress poll.before.application (replay start.application (readings earlier))

theorem Replayed.cons {t : Stack} (h : Replayed start a) (poll : Poll) (hbefore : poll.before = a.stack)
    (hnow : SameProgress t.application (replay start.application (readings (poll :: a.polls)))) :
    Replayed start ⟨t, poll :: a.polls⟩ := by
  refine ⟨hnow, fun later poll' earlier hsplit => ?_⟩
  cases later with
  | nil =>
    rw [List.nil_append, List.cons.injEq] at hsplit
    obtain ⟨rfl, rfl⟩ := hsplit
    rw [hbefore]
    exact h.now
  | cons first rest =>
    rw [List.cons_append, List.cons.injEq] at hsplit
    exact h.before rest poll' earlier hsplit.2

/-- A download is the replay of the datagrams it has read. -/
theorem Downloads.replayed (hstart : Reaches Op.exec (fun _ _ => True) (booted application time entropy) start)
    (h : Downloads start a) : Replayed start a := by
  apply (Downloads.induct hstart h (I := Replayed start) ?_ ?_ ?_).2
  · refine ⟨.refl _, fun later poll earlier hsplit => ?_⟩
    simp at hsplit
  · intro a t ha happlication
    refine ⟨?_, ha.before⟩
    rw [happlication]
    exact ha.now
  · intro a size t hreached ha hreturned
    let poll : Poll := ⟨a.stack, size, t⟩
    apply ha.cons poll rfl
    have hstep : SameProgress poll.after.application (afterReading poll.before.application poll.size poll.datagram) :=
      readFile_reads hreached hreturned
    have hreads := hstep.trans (ha.now.reads size poll.datagram)
    cases hread : poll.datagram with
    | none =>
      rw [hread, afterReading, pollResult_none] at hreads
      have hnone : readings (poll :: a.polls) = readings a.polls :=
        List.filterMap_cons_none (by rw [Poll.reading, hread, Option.map_none])
      rw [hnone]
      exact ⟨hreads.connection, by simpa [TftpResult.nothing] using hreads.received⟩
    | some content =>
      rw [hread] at hreads
      have hsome : readings (poll :: a.polls) = ⟨size, content⟩ :: readings a.polls :=
        List.filterMap_cons_some (by rw [Poll.reading, hread, Option.map_some])
      rw [hsome]
      exact hreads

end MiniIp.Invariant
