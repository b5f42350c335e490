import MiniIp.Invariant.SentDatagrams
import MiniIp.Invariant.Transcript

/-!
# What a poll sends, and when

`marks` reads off a trace the datagrams that were sent and those that were taken
out of a queue, in one order. A call of `tftp_read` in the READ state repeats the
last acknowledgement at most, then takes the head of the queue, and then sends at
most one answer to it.
-/

set_option autoImplicit false

namespace MiniIp.Invariant

open MiniIp.Source MiniIp.Library.Wp

inductive Mark where
  | sent (datagram : Datagram)
  | taken (content : NetworkPacket)

def Event.mark : Event → Option Mark
  | .udpSend sourcePort destPort ip payload => some (.sent ⟨sourcePort, destPort, ip, payload⟩)
  | .udpTaken _ _ content => some (.taken content)
  | _ => none

/-- The newest first. -/
def marks (trace : List Event) : List Mark := trace.filterMap Event.mark

/-- `ack_current_block`, as the datagram it sends. -/
def ackDatagram (connection : TftpConnection) (blockNumber : UInt16) : Datagram :=
  ⟨connection.clientPort, connection.serverPort, connection.serverIp, ackBytes blockNumber⟩

/-- The error "wrong port", as the datagram that is sent. -/
def wrongPortDatagram (connection : TftpConnection) (port : Port) : Datagram :=
  ⟨connection.clientPort, port, connection.serverIp,
    be16Bytes tftpOpcodeError ++ be16Bytes tftpErrorUnknownTid ++ stringFollowedByZero wrongPortString⟩

/-- What `try_read_data` sends for a datagram. -/
def readAnswer (connection : TftpConnection) (content : NetworkPacket) : List Datagram :=
  if connection.serverPort ≠ tftpInitialServerPort ∧ connection.serverPort ≠ content.sourcePort then
    [wrongPortDatagram connection content.sourcePort]
  else if readBe16 content.data (content.index + 2) = connection.blockNumber then
    [ackDatagram connection connection.blockNumber]
  else []

/-- The datagrams have been sent, and the ones in `read` taken before them. -/
def Marked (late : List Datagram) (read : Option NetworkPacket) (early : List Datagram) (s t : Stack) : Prop :=
  marks t.trace = late.map .sent ++ (read.toList.map .taken ++ (early.map .sent ++ marks s.trace))

/-- What a call of `tftp_read` may send, for the datagram it has taken if it has taken one. -/
structure PollMarked (connection : TftpConnection) (read : Option NetworkPacket) (s t : Stack) : Prop where
  marked : ∃ late early, Marked late read early s t ∧
    (early = [] ∨ early = [ackDatagram connection connection.blockNumber]) ∧
    (late = [] ∨ ∃ content, read = some content ∧ (late = readAnswer connection content ∨
      TakenAsNext connection content ∧ late = [ackDatagram connection (readBe16 content.data (content.index + 2))]))

variable {W : Prop} {U : QueueContent} {limit : ℕ} {held : List PacketId} {s t u : Stack}
  {connection : TftpConnection} {size : Int} {head : Option NetworkPacket}

theorem Delivering.mark {event : Event} (h : Delivering event) : Event.mark event = none := by
  cases event <;> first | rfl | exact h.elim

theorem sendTftpPacket_marks (connection : TftpConnection) (destPort : Port) (bytes : List UInt8) (s : Stack) :
    wp (sendTftpPacket connection destPort bytes)
      (fun _ t => marks t.trace =
        .sent ⟨connection.clientPort, destPort, connection.serverIp, bytes⟩ :: marks s.trace)
      (fun _ t => marks t.trace = marks s.trace ∨ marks t.trace =
        .sent ⟨connection.clientPort, destPort, connection.serverIp, bytes⟩ :: marks s.trace) s :=
  sendTftpPacket_observed (fun _ h => h.mark) rfl s

/-- The acknowledgement is repeated on a timeout, or nothing is sent. -/
theorem ackOnTimeout_marks (connection : TftpConnection) (s : Stack) :
    wp (tftpSendOnTimeout connection (ackCurrentBlock connection))
      (fun _ t => ∃ early, Marked [] none early s t ∧
        (early = [] ∨ early = [ackDatagram connection connection.blockNumber]))
      (fun _ t => ∃ early, Marked [] none early s t ∧
        (early = [] ∨ early = [ackDatagram connection connection.blockNumber])) s := by
  unfold tftpSendOnTimeout nextTftpBackoff
  simp only [wp_bind, wp_getTime, wp_ite, wp_pure, wp_random]
  split
  · apply wp_mono (sendTftpPacket_marks connection connection.serverPort (ackBytes connection.blockNumber) s)
    · intro _ t ht
      exact ⟨[ackDatagram connection connection.blockNumber], ht, .inr rfl⟩
    · intro _ t ht
      rcases ht with hnone | hsent
      · exact ⟨[], hnone, .inl rfl⟩
      · exact ⟨[ackDatagram connection connection.blockNumber], hsent, .inr rfl⟩
  · exact ⟨[], rfl, .inl rfl⟩

/-- The head of the queue is taken, and answered. -/
theorem tryReadData_marks (h : UdpTable limit s.udp) :
    wp (tryReadData connection size)
      (fun _ t => ∃ late, Marked late (headDatagram s connection.clientPort) [] s t ∧
        (late = [] ∨ ∃ content, headDatagram s connection.clientPort = some content ∧ late = readAnswer connection content))
      (fun _ t => ∃ late, Marked late (headDatagram s connection.clientPort) [] s t ∧
        (late = [] ∨ ∃ content, headDatagram s connection.clientPort = some content ∧ late = readAnswer connection content))
      s := by
  unfold tryReadData
  rw [wp_bind, wp_udpReceiveZeroCopy h]
  split
  · next hhead =>
    have hnone : headDatagram s connection.clientPort = none := by simp [headDatagram, hhead]
    rw [wp_pure, hnone]
    exact ⟨[], rfl, .inl rfl⟩
  · next c p hhead =>
    have hsome : headDatagram s connection.clientPort = some (s.packets p) := by simp [headDatagram, hhead]
    have hcontent : (dequeued s connection.clientPort c p).packets p = s.packets p := rfl
    have hanswer : ∀ (destPort : Port) (bytes : List UInt8),
        readAnswer connection (s.packets p) =
          [⟨connection.clientPort, destPort, connection.serverIp, bytes⟩] →
        wp (sendTftpPacket connection destPort bytes)
          (fun _ t => ∃ late, Marked late (some (s.packets p)) [] s t ∧
            (late = [] ∨ ∃ content, some (s.packets p) = some content ∧ late = readAnswer connection content))
          (fun _ t => ∃ late, Marked late (some (s.packets p)) [] s t ∧
            (late = [] ∨ ∃ content, some (s.packets p) = some content ∧ late = readAnswer connection content))
          (dequeued s connection.clientPort c p) := by
      intro destPort bytes hone
      apply wp_mono (sendTftpPacket_marks connection destPort bytes _)
      · intro _ t ht
        exact ⟨[⟨connection.clientPort, destPort, connection.serverIp, bytes⟩], ht, .inr ⟨_, rfl, hone.symm⟩⟩
      · intro _ t ht
        rcases ht with hnone | hsent
        · exact ⟨[], hnone, .inl rfl⟩
        · exact ⟨[⟨connection.clientPort, destPort, connection.serverIp, bytes⟩], hsent, .inr ⟨_, rfl, hone.symm⟩⟩
    rw [hsome]
    simp only [wp_bind, wp_getPacket, wp_ite, wp_pure, wp_freeNetworkPacket, hcontent]
    split
    · next hport =>
      apply wp_mono (hanswer (s.packets p).sourcePort _ (by rw [readAnswer, if_pos hport]; rfl))
      · intro _ t ht
        exact ht
      · intro _ t ht
        exact ht
    · next hport =>
      split
      · next hrepeat =>
        apply wp_mono (hanswer connection.serverPort _ (by rw [readAnswer, if_neg hport, if_pos hrepeat]; rfl))
        · intro _ t ht
          exact ht
        · intro _ t ht
          exact ht
      · split
        · exact ⟨[], rfl, .inl rfl⟩
        · exact ⟨[], rfl, .inl rfl⟩

theorem Marked.after {late early : List Datagram} {read : Option NetworkPacket} (h : Marked [] none early s t)
    (h' : Marked late read [] t u) : Marked late read early s u := by
  unfold Marked at *
  rw [h', h]
  rfl

theorem Marked.sent {late early : List Datagram} {read : Option NetworkPacket} {d : Datagram}
    (h : Marked late read early s t) (hsent : marks u.trace = .sent d :: marks t.trace) :
    Marked (d :: late) read early s u := by
  unfold Marked at *
  rw [hsent, h]
  rfl

/-- The next block is answered by nothing in `try_read_data`. -/
theorem readAnswer_next {content : NetworkPacket} (h : TakenAsNext connection content) :
    readAnswer connection content = [] := by
  have hport : ¬ (connection.serverPort ≠ tftpInitialServerPort ∧ connection.serverPort ≠ content.sourcePort) := by
    rintro ⟨hinitial, hsource⟩
    rcases h.port with heq | heq
    · exact hinitial heq
    · exact hsource heq
  have hnumber : readBe16 content.data (content.index + 2) ≠ connection.blockNumber := by
    intro heq
    have hnext := h.number
    rw [heq] at hnext
    omega
  rw [readAnswer, if_neg hport, if_neg hnumber]

/-- Bytes are returned for the next block only. -/
theorem readData_counts (h : (readData connection size head).1.count ≠ 0) :
    ∃ content, head = some content ∧ TakenAsNext connection content ∧
      (readData connection size head).2.blockNumber = readBe16 content.data (content.index + 2) := by
  cases head with
  | none => exact absurd rfl h
  | some content =>
    by_cases htaken : TakenAsNext connection content
    · exact ⟨content, rfl, htaken, by rw [readData_next htaken]⟩
    · rw [readData_left htaken] at h
      exact absurd rfl h

/-- The last block is acknowledged when it has been taken. -/
theorem lastAck_marks {content : NetworkPacket} {early : List Datagram} {backoff : Backoff} (hu : Marked [] head early s u)
    (hack : early = [] ∨ early = [ackDatagram connection connection.blockNumber]) (hsome : head = some content)
    (htaken : TakenAsNext connection content) :
    wp (ackCurrentBlock { connection with
        blockNumber := readBe16 content.data (content.index + 2), backoff := backoff })
      (fun _ v => PollMarked connection head s v)
      (fun _ v => ∃ read, (read = none ∨ read = head) ∧ PollMarked connection read s v) u := by
  have hfinal : ∀ v, marks v.trace =
      .sent (ackDatagram connection (readBe16 content.data (content.index + 2))) :: marks u.trace →
      PollMarked connection head s v := by
    intro v hv
    exact ⟨[_], early, hu.sent hv, hack, .inr ⟨content, hsome, .inr ⟨htaken, rfl⟩⟩⟩
  apply wp_mono (sendTftpPacket_marks _ _ _ u)
  · intro _ v hv
    exact hfinal v hv
  · intro _ v hv
    refine ⟨head, .inr rfl, ?_⟩
    rcases hv with hnone | hsent
    · exact ⟨[], early, hnone.trans hu, hack, .inl rfl⟩
    · exact hfinal v hsent

/-- What a poll leaves in the trace, with the datagram that it reads. -/
theorem tftpRead_marks (size : Int) (h : Sound False U limit held s) (hstate : connection.state = .read) :
    wp (tftpRead connection size)
      (fun _ t => PollMarked connection (headDatagram s connection.clientPort) s t)
      (fun _ t => ∃ read, (read = none ∨ read = headDatagram s connection.clientPort) ∧
        PollMarked connection read s t) s := by
  unfold tftpRead tftpReadReadState
  rw [hstate]
  simp only [wp_bind]
  apply wp_mono (wp_and (ackOnTimeout h) (ackOnTimeout_marks connection s))
  · intro c t ht
    obtain ⟨⟨⟨backoff, rfl⟩, hudp, hhead⟩, early, hearly, hack⟩ := ht
    have htable : UdpTable limit t.udp := hudp ▸ h.udp
    have hread : headDatagram t connection.clientPort = headDatagram s connection.clientPort := hhead
    have hmarked : ∀ late u, Marked late (headDatagram t connection.clientPort) [] t u →
        Marked late (headDatagram s connection.clientPort) early s u := by
      intro late u hu
      rw [hread] at hu
      exact hearly.after hu
    apply wp_mono (wp_and (tryReadData_reads htable) (tryReadData_marks htable))
    · intro out u hu
      obtain ⟨⟨rfl, _⟩, late, hlate, hanswer⟩ := hu
      rw [hread, readData_backoff]
      rw [hread] at hanswer
      have hu := hmarked late u hlate
      have hkept : PollMarked connection (headDatagram s connection.clientPort) s u := by
        refine ⟨late, early, hu, hack, ?_⟩
        rcases hanswer with hnone | ⟨content, hsome, hone⟩
        · exact .inl hnone
        · exact .inr ⟨content, hsome, .inl hone⟩
      dsimp only
      rw [wp_ite]
      split
      · next hcount =>
        rw [wp_ite]
        split
        · obtain ⟨content, hsome, htaken, hblock⟩ := readData_counts hcount
          have hsilent : late = [] := by
            rcases hanswer with hnone | ⟨content', hsome', hone⟩
            · exact hnone
            · rw [hsome, Option.some.injEq] at hsome'
              rw [hone, ← hsome']
              exact readAnswer_next ⟨htaken.port, htaken.number⟩
          rw [hsilent] at hu
          rw [wp_bind, readData_connection connection size (headDatagram s connection.clientPort), hblock]
          exact lastAck_marks hu hack hsome htaken
        · exact hkept
      · exact hkept
    · intro _ u hu
      obtain ⟨_, late, hlate, hanswer⟩ := hu
      rw [hread] at hanswer
      refine ⟨_, .inr rfl, late, early, hmarked late u hlate, hack, ?_⟩
      rcases hanswer with hnone | ⟨content, hsome, hone⟩
      · exact .inl hnone
      · exact .inr ⟨content, hsome, .inl hone⟩
  · intro _ t ht
    obtain ⟨_, early, hearly, hack⟩ := ht
    exact ⟨none, .inl rfl, [], early, hearly, hack, .inl rfl⟩

theorem readFile_marks (size : Int) (h : Sound False U limit held s) (hstate : s.application.connection.state = .read) :
    wp (readFile size)
      (fun _ t => PollMarked s.application.connection
        (headDatagram s s.application.connection.clientPort) s t)
      (fun _ t => ∃ read, (read = none ∨ read = headDatagram s s.application.connection.clientPort) ∧
        PollMarked s.application.connection read s t) s := by
  unfold readFile
  simp only [wp_bind, wp_get, wp_modify]
  apply wp_mono (tftpRead_marks size h hstate)
  · intro _ t ht
    exact ⟨ht.marked⟩
  · intro _ t ht
    exact ht

/-- A transfer that is over sends nothing. -/
theorem readFile_over (size : Int)
    (h : s.application.connection.state = .done ∨ s.application.connection.state = .error) :
    wp (readFile size) (fun _ t => t.trace = s.trace) (fun _ t => t.trace = s.trace) s := by
  unfold readFile tftpRead
  simp only [wp_bind, wp_get, wp_modify]
  rcases h with hdone | herror
  · simp only [hdone, wp_pure]
  · simp only [herror, wp_pure]

end MiniIp.Invariant
