import MiniIp.Invariant.FileServer
import MiniIp.Invariant.PollMarks

/-!
# Honest acknowledgements

`tftp_read` acknowledges on a timeout, for a block that is repeated and for the
last block. What it acknowledges is the number of blocks `try_read_data` has
accepted so far, and these are 1, 2, 3 and so on (`acks_honest`).

`try_read_data` (tftp.c:214) takes no port for a wrong one as long as
`server_port` is 69 (`other_port_accepted`).
-/

set_option autoImplicit false

namespace MiniIp.Guarantees.HonestAcks

open MiniIp.Source MiniIp.Invariant MiniIp.Library.Runs MiniIp.Library.Wp

/-- What happens in a transfer: datagrams are sent, and others are accepted as a block or not. -/
inductive TransferEvent where
  | sent (datagram : Datagram)
  | accepted (blockNumber : UInt16)
  | left (content : NetworkPacket)

/-- The `block_number` of a datagram. -/
def numberOf (content : NetworkPacket) : UInt16 := readBe16 content.data (content.index + 2)

def Mark.event (accepts : NetworkPacket → Bool) : Mark → TransferEvent
  | .sent datagram => .sent datagram
  | .taken content => if accepts content then .accepted (numberOf content) else .left content

/-- The marks that have been added, the newest first. -/
def newMarks (s t : Stack) : List Mark := (marks t.trace).take ((marks t.trace).length - (marks s.trace).length)

/-- A datagram was accepted by a call that has changed the block number. -/
def Poll.events (poll : Poll) : List TransferEvent :=
  (newMarks poll.before poll.after).map (Mark.event fun _ =>
    poll.after.application.connection.blockNumber ≠ poll.before.application.connection.blockNumber)

instance (connection : TftpConnection) (content : NetworkPacket) : Decidable (TakenAsNext connection content) :=
  decidable_of_iff ((connection.serverPort = tftpInitialServerPort ∨ connection.serverPort = content.sourcePort) ∧
    (readBe16 content.data (content.index + 2)).toNat = connection.blockNumber.toNat + 1)
    ⟨fun h => ⟨h.1, h.2⟩, fun h => ⟨h.port, h.number⟩⟩

/-- The same for a call that never returns, by the condition under which the code assigns the block number. -/
def stoppedEvents (s t : Stack) : List TransferEvent :=
  (newMarks s t).map (Mark.event fun content => TakenAsNext s.application.connection content)

/-- The events of the calls, the newest first. -/
def transferEvents (polls : List Poll) : List TransferEvent := polls.flatMap Poll.events

def TransferEvent.number : TransferEvent → Option ℕ
  | .accepted blockNumber => some blockNumber.toNat
  | _ => none

def acceptedNumbers (log : List TransferEvent) : List ℕ := log.filterMap TransferEvent.number

/-- Every acknowledgement carries the number of blocks that were accepted before it, and those are 1, 2, 3 and so on. -/
def AcksCount (log : List TransferEvent) : Prop :=
  ∀ later datagram earlier blockNumber, log = later ++ .sent datagram :: earlier → datagram.payload = ackBytes blockNumber →
    (acceptedNumbers earlier).reverse = List.range' 1 blockNumber.toNat

/-- The acknowledgements never decrease. -/
def AcksGrow (log : List TransferEvent) : Prop :=
  ∀ later datagram between datagram' earlier blockNumber blockNumber',
    log = later ++ .sent datagram :: (between ++ .sent datagram' :: earlier) →
    datagram.payload = ackBytes blockNumber → datagram'.payload = ackBytes blockNumber' → blockNumber' ≤ blockNumber

/-- An old datagram, or one from a wrong port. -/
def Stale (connection : TftpConnection) (content : NetworkPacket) : Prop :=
  (numberOf content).toNat ≤ connection.blockNumber.toNat ∨
    connection.serverPort ≠ tftpInitialServerPort ∧ connection.serverPort ≠ content.sourcePort

/-- The call has changed nothing. It has sent the last acknowledgement again or an error at most. -/
structure LeftAlone (poll : Poll) (content : NetworkPacket) : Prop where
  unchanged : SameProgress poll.after.application poll.before.application
  sent : ∀ datagram, .sent datagram ∈ Poll.events poll →
    datagram = ackDatagram poll.before.application.connection poll.before.application.connection.blockNumber ∨
      datagram = wrongPortDatagram poll.before.application.connection content.sourcePort

structure HonestTransfer (a : Transcript) : Prop where
  numbers : (acceptedNumbers (transferEvents a.polls)).reverse =
    List.range' 1 a.stack.application.connection.blockNumber.toNat
  acks : AcksCount (transferEvents a.polls)
  grow : AcksGrow (transferEvents a.polls)
  stale : ∀ poll ∈ a.polls, ∀ content, poll.datagram = some content →
    Stale poll.before.application.connection content → LeftAlone poll content
  stopped : ∀ size halt t, readFile size a.stack = .error halt t →
    AcksCount (stoppedEvents a.stack t ++ transferEvents a.polls)

variable {application : Application} {time : Time} {entropy : ℕ → UInt32} {s t start : Stack} {a : Transcript}
  {connection : TftpConnection} {content : NetworkPacket} {size : Int} {poll : Poll} {read : Option NetworkPacket}
  {log past : List TransferEvent} {datagram : Datagram} {blockNumber blockNumber' : UInt16}

/-- The same as `AcksCount`, event by event. -/
def Honest : List TransferEvent → Prop
  | [] => True
  | .sent datagram :: past =>
    (∀ blockNumber, datagram.payload = ackBytes blockNumber → blockNumber.toNat = (acceptedNumbers past).length) ∧
      Honest past
  | .accepted blockNumber :: past => blockNumber.toNat = (acceptedNumbers past).length + 1 ∧ Honest past
  | .left _ :: past => Honest past

@[simp] theorem acceptedNumbers_left : acceptedNumbers (.left content :: past) = acceptedNumbers past := rfl

@[simp] theorem acceptedNumbers_accepted :
    acceptedNumbers (.accepted blockNumber :: past) = blockNumber.toNat :: acceptedNumbers past := rfl

theorem Honest.tail {event : TransferEvent} (h : Honest (event :: past)) : Honest past := by
  cases event with
  | sent datagram => exact h.2
  | accepted blockNumber => exact h.2
  | left content => exact h

theorem Honest.earlier {later : List TransferEvent} (h : Honest (later ++ past)) : Honest past := by
  induction later with
  | nil => exact h
  | cons event rest ih => exact ih h.tail

theorem Honest.numbers (h : Honest log) :
    (acceptedNumbers log).reverse = List.range' 1 (acceptedNumbers log).length := by
  induction log with
  | nil => rfl
  | cons event past ih =>
    have hpast := ih h.tail
    cases event with
    | sent datagram => exact hpast
    | left content => exact hpast
    | accepted blockNumber =>
      rw [acceptedNumbers_accepted, List.reverse_cons, List.length_cons, hpast, h.1, List.range'_1_concat,
        Nat.add_comm 1]

theorem Honest.acksCount (h : Honest log) : AcksCount log := by
  intro later datagram earlier blockNumber hlog hack
  rw [hlog] at h
  have hsent := h.earlier
  rw [hsent.1 blockNumber hack]
  exact hsent.2.numbers

theorem Honest.acksGrow (h : Honest log) : AcksGrow log := by
  intro later datagram between datagram' earlier blockNumber blockNumber' hlog hack hack'
  rw [hlog] at h
  have hsent := h.earlier
  have hsent' := hsent.2.earlier
  have hcount := hsent.1 blockNumber hack
  have hcount' := hsent'.1 blockNumber' hack'
  have hmore : (acceptedNumbers earlier).length ≤ (acceptedNumbers (between ++ .sent datagram' :: earlier)).length := by
    rw [acceptedNumbers, acceptedNumbers, List.filterMap_append, List.length_append]
    exact Nat.le_add_left _ _
  rw [UInt16.le_iff_toNat_le]
  omega

theorem acceptedNumbers_sents (datagrams : List Datagram) :
    acceptedNumbers (datagrams.map .sent ++ past) = acceptedNumbers past := by
  induction datagrams with
  | nil => rfl
  | cons datagram rest ih => exact ih

/-- Datagrams that are acknowledgements of what has been accepted, or none. -/
theorem Honest.sents (h : Honest past) {datagrams : List Datagram}
    (hcount : ∀ datagram ∈ datagrams, ∀ blockNumber, datagram.payload = ackBytes blockNumber →
      blockNumber.toNat = (acceptedNumbers past).length) : Honest (datagrams.map .sent ++ past) := by
  induction datagrams with
  | nil => exact h
  | cons datagram rest ih =>
    have hrest := ih fun d hd => hcount d (List.mem_cons_of_mem _ hd)
    have hkept : acceptedNumbers (rest.map .sent ++ past) = acceptedNumbers past := acceptedNumbers_sents rest
    refine ⟨fun blockNumber hack => ?_, hrest⟩
    exact (hcount datagram List.mem_cons_self blockNumber hack).trans (congrArg List.length hkept.symm)

theorem be16Bytes_injective {value value' : UInt16} (h : be16Bytes value = be16Bytes value') : value = value' := by
  have hvalue : ∀ v : UInt16, v.toNat = 256 * (v >>> 8).toUInt8.toNat + v.toUInt8.toNat := by
    intro v
    have hv := v.toNat_lt
    rw [UInt16.toNat_toUInt8, UInt16.toNat_toUInt8, UInt16.toNat_shiftRight, Nat.shiftRight_eq_div_pow]
    show v.toNat = 256 * (v.toNat / 2 ^ 8 % 2 ^ 8) + v.toNat % 2 ^ 8
    omega
  rw [be16Bytes, be16Bytes, List.cons.injEq, List.cons.injEq] at h
  rw [← UInt16.toNat_inj, hvalue value, hvalue value', h.1, h.2.1]

theorem ackDatagram_payload (h : (ackDatagram connection blockNumber).payload = ackBytes blockNumber') :
    blockNumber' = blockNumber := by
  have hbytes : be16Bytes blockNumber = be16Bytes blockNumber' := List.append_cancel_left h
  exact (be16Bytes_injective hbytes).symm

theorem wrongPortDatagram_payload (port : Port) (blockNumber : UInt16) :
    (wrongPortDatagram connection port).payload ≠ ackBytes blockNumber := by
  intro h
  have hopcode : be16Bytes tftpOpcodeError = be16Bytes tftpOpcodeAck := congrArg (List.take 2) h
  exact absurd hopcode (by decide)

/-- The answer to a datagram that is not accepted acknowledges nothing new. -/
theorem readAnswer_payload (hsent : datagram ∈ readAnswer connection content)
    (hack : datagram.payload = ackBytes blockNumber) : blockNumber = connection.blockNumber := by
  rw [readAnswer] at hsent
  split at hsent
  · rw [List.mem_singleton.mp hsent] at hack
    exact absurd hack (wrongPortDatagram_payload _ _)
  · split at hsent
    · rw [List.mem_singleton.mp hsent] at hack
      exact ackDatagram_payload hack
    · cases hsent

theorem newMarks_marked {late early : List Datagram} (h : Marked late read early s t) :
    newMarks s t = late.map .sent ++ (read.toList.map .taken ++ early.map .sent) := by
  unfold Marked at h
  rw [← List.append_assoc, ← List.append_assoc] at h
  rw [newMarks, h, List.length_append, Nat.add_sub_cancel_right, List.take_left', List.append_assoc]
  rfl

/-- A call keeps the log honest, and accepts one block or none. -/
theorem honest_marked (hpast : Honest past) (hcount : connection.blockNumber.toNat = (acceptedNumbers past).length)
    (h : PollMarked connection read s t) {accepts : NetworkPacket → Bool}
    (haccepts : ∀ content, read = some content → (accepts content = true ↔ TakenAsNext connection content)) :
    Honest ((newMarks s t).map (Mark.event accepts) ++ past) ∧
      (acceptedNumbers ((newMarks s t).map (Mark.event accepts) ++ past)).length =
        (readData connection 1 read).2.blockNumber.toNat := by
  obtain ⟨late, early, hmarked, hack, hlate⟩ := h.marked
  have hsents : ∀ datagrams : List Datagram,
      (datagrams.map Mark.sent).map (Mark.event accepts) = datagrams.map TransferEvent.sent := by
    intro datagrams
    rw [List.map_map]
    rfl
  have hearly : Honest (early.map .sent ++ past) := by
    apply hpast.sents
    intro datagram hdatagram blockNumber hpayload
    rcases hack with hnone | hone
    · rw [hnone] at hdatagram
      cases hdatagram
    · rw [hone] at hdatagram
      rw [List.mem_singleton.mp hdatagram] at hpayload
      rw [ackDatagram_payload hpayload, hcount]
  have hkept : acceptedNumbers (early.map .sent ++ past) = acceptedNumbers past := acceptedNumbers_sents early
  rw [newMarks_marked hmarked, List.map_append, List.map_append, hsents, hsents, List.append_assoc, List.append_assoc]
  cases read with
  | none =>
    have hsilent : late = [] := by
      rcases hlate with hnone | ⟨content, hsome, _⟩
      · exact hnone
      · cases hsome
    rw [hsilent]
    exact ⟨hearly, (congrArg List.length hkept).trans hcount.symm⟩
  | some content =>
    by_cases htaken : TakenAsNext connection content
    · have hevent : Mark.event accepts (.taken content) = .accepted (numberOf content) := by
        rw [Mark.event, if_pos ((haccepts content rfl).mpr htaken)]
      have hnext : (numberOf content).toNat = (acceptedNumbers (early.map .sent ++ past)).length + 1 := by
        rw [hkept, ← hcount]
        exact htaken.number
      have hread : Honest (.accepted (numberOf content) :: (early.map .sent ++ past)) := ⟨hnext, hearly⟩
      rw [readData_next htaken]
      simp only [Option.toList_some, List.map_cons, List.map_nil, hevent, List.cons_append, List.nil_append]
      refine ⟨hread.sents ?_, ?_⟩
      · intro datagram hdatagram blockNumber hpayload
        rcases hlate with hnone | ⟨content', hsome, hanswer | ⟨_, hlast⟩⟩
        · rw [hnone] at hdatagram
          cases hdatagram
        · rw [hanswer, ← Option.some.inj hsome, readAnswer_next htaken] at hdatagram
          cases hdatagram
        · rw [hlast, ← Option.some.inj hsome] at hdatagram
          rw [List.mem_singleton.mp hdatagram] at hpayload
          rw [ackDatagram_payload hpayload]
          exact hnext
      · rw [acceptedNumbers_sents, acceptedNumbers_accepted, List.length_cons]
        exact hnext.symm
    · have hevent : Mark.event accepts (.taken content) = .left content := by
        rw [Mark.event, if_neg (fun haccepted => htaken ((haccepts content rfl).mp haccepted))]
      have hread : Honest (.left content :: (early.map .sent ++ past)) := hearly
      rw [readData_left htaken]
      simp only [Option.toList_some, List.map_cons, List.map_nil, hevent, List.cons_append, List.nil_append]
      refine ⟨hread.sents ?_, ?_⟩
      · intro datagram hdatagram blockNumber hpayload
        rcases hlate with hnone | ⟨content', hsome, hanswer | ⟨hnext, _⟩⟩
        · rw [hnone] at hdatagram
          cases hdatagram
        · rw [hanswer] at hdatagram
          rw [readAnswer_payload hdatagram hpayload, acceptedNumbers_left, hkept, hcount]
        · rw [← Option.some.inj hsome] at hnext
          exact absurd hnext htaken
      · rw [acceptedNumbers_sents, acceptedNumbers_left, hkept]
        exact hcount.symm

theorem sent_mem_events {marks : List Mark} {accepts : NetworkPacket → Bool}
    (h : .sent datagram ∈ marks.map (Mark.event accepts)) : .sent datagram ∈ marks := by
  obtain ⟨mark, hmark, hevent⟩ := List.mem_map.mp h
  cases mark with
  | sent datagram' =>
    rw [Mark.event, TransferEvent.sent.injEq] at hevent
    rw [← hevent]
    exact hmark
  | taken content =>
    rw [Mark.event] at hevent
    split at hevent
    · cases hevent
    · cases hevent

theorem stale_not_next (h : Stale connection content) : ¬ TakenAsNext connection content := by
  intro htaken
  rcases h with hold | ⟨hinitial, hsource⟩
  · have hnumber := htaken.number
    rw [numberOf] at hold
    omega
  · rcases htaken.port with heq | heq
    · exact hinitial heq
    · exact hsource heq

/-- What is sent for a datagram that is not accepted. -/
theorem unaccepted_sent (h : PollMarked connection (some content) s t) (hleft : ¬ TakenAsNext connection content)
    (hsent : .sent datagram ∈ newMarks s t) :
    datagram = ackDatagram connection connection.blockNumber ∨
      datagram = wrongPortDatagram connection content.sourcePort := by
  obtain ⟨late, early, hmarked, hack, hlate⟩ := h.marked
  rw [newMarks_marked hmarked, List.mem_append, List.mem_append, List.mem_map, List.mem_map, List.mem_map] at hsent
  rcases hsent with ⟨d, hd, heq⟩ | ⟨c, _, heq⟩ | ⟨d, hd, heq⟩
  · rw [Mark.sent.injEq] at heq
    subst heq
    rcases hlate with hnone | ⟨content', hsome, hanswer | ⟨hnext, _⟩⟩
    · rw [hnone] at hd
      cases hd
    · rw [hanswer, ← Option.some.inj hsome, readAnswer] at hd
      split at hd
      · exact .inr (List.mem_singleton.mp hd)
      · split at hd
        · exact .inl (List.mem_singleton.mp hd)
        · cases hd
    · rw [← Option.some.inj hsome] at hnext
      exact absurd hnext hleft
  · cases heq
  · rw [Mark.sent.injEq] at heq
    subst heq
    rcases hack with hnone | hone
    · rw [hnone] at hd
      cases hd
    · rw [hone] at hd
      exact .inl (List.mem_singleton.mp hd)

/-- The block number after a call is the one that `try_read_data` leaves. -/
theorem polled_number (connection : TftpConnection) (size : Int) (head : Option NetworkPacket) :
    (polled connection size head).2.blockNumber = (readData connection 1 head).2.blockNumber := by
  have hnumber : (polled connection size head).2.blockNumber = (readData connection size head).2.blockNumber := by
    rw [polled]
    dsimp only
    split
    · rfl
    · split
      · rfl
      · rfl
  rw [hnumber]
  cases head with
  | none => rfl
  | some content =>
    by_cases htaken : TakenAsNext connection content
    · rw [readData_next htaken, readData_next htaken]
    · rw [readData_left htaken, readData_left htaken]

theorem polled_running (hstate : connection.state = .read) (size : Int) (head : Option NetworkPacket) :
    (polled connection size head).2.state = .read ∨ (polled connection size head).2.state = .done := by
  have hkept : (readData connection size head).2.state = .read := by
    rw [readData_connection]
    exact hstate
  rw [polled]
  dsimp only
  split
  · exact .inl hkept
  · split
    · exact .inr rfl
    · exact .inl hkept

/-- The number changes where the next block is taken. -/
theorem number_changes_iff (connection : TftpConnection) (content : NetworkPacket) :
    (readData connection 1 (some content)).2.blockNumber ≠ connection.blockNumber ↔ TakenAsNext connection content := by
  constructor
  · intro hchanged
    by_contra hleft
    rw [readData_left hleft] at hchanged
    exact hchanged rfl
  · intro htaken heq
    have hnumber := htaken.number
    rw [readData_next htaken] at heq
    dsimp only at heq
    rw [heq] at hnumber
    omega

/-- The invariant of a transfer. -/
structure Acknowledging (a : Transcript) : Prop where
  state : a.stack.application.connection.state = .read ∨ a.stack.application.connection.state = .done
  honest : Honest (transferEvents a.polls)
  count : a.stack.application.connection.blockNumber.toNat = (acceptedNumbers (transferEvents a.polls)).length
  stale : ∀ poll ∈ a.polls, ∀ content, poll.datagram = some content →
    Stale poll.before.application.connection content → LeftAlone poll content

theorem newMarks_same (h : t.trace = s.trace) : newMarks s t = [] := by
  rw [newMarks, h, Nat.sub_self, List.take_zero]

/-- A call in the READ state. -/
theorem acknowledging_read (h : Acknowledging a) (hread : a.stack.application.connection.state = .read)
    (hresult : SameTransfer t.application.connection (polled a.stack.application.connection size
      (headDatagram a.stack a.stack.application.connection.clientPort)).2)
    (hprogress : SameProgress t.application (afterReading a.stack.application size
      (headDatagram a.stack a.stack.application.connection.clientPort)))
    (hmarked : PollMarked a.stack.application.connection
      (headDatagram a.stack a.stack.application.connection.clientPort) a.stack t) :
    Acknowledging ⟨t, ⟨a.stack, size, t⟩ :: a.polls⟩ := by
  have hnumber : t.application.connection.blockNumber = (readData a.stack.application.connection 1
      (headDatagram a.stack a.stack.application.connection.clientPort)).2.blockNumber := by
    obtain ⟨backoff, hconnection⟩ := hresult
    rw [hconnection]
    exact polled_number _ _ _
  have haccepts : ∀ content, headDatagram a.stack a.stack.application.connection.clientPort = some content →
      (decide (t.application.connection.blockNumber ≠ a.stack.application.connection.blockNumber) = true ↔
        TakenAsNext a.stack.application.connection content) := by
    intro content hhead
    rw [decide_eq_true_eq, hnumber, hhead]
    exact number_changes_iff _ _
  obtain ⟨hhonest, hcount⟩ := honest_marked h.honest h.count hmarked haccepts
  constructor
  · obtain ⟨backoff, hconnection⟩ := hresult
    show t.application.connection.state = .read ∨ t.application.connection.state = .done
    rw [hconnection]
    exact polled_running hread _ _
  · exact hhonest
  · exact (congrArg UInt16.toNat hnumber).trans hcount.symm
  · intro poll hpoll content hdatagram hstale
    rcases List.mem_cons.mp hpoll with rfl | hearlier
    · have hhead : headDatagram a.stack a.stack.application.connection.clientPort = some content := by
        rw [Poll.datagram, if_pos (.inr hread)] at hdatagram
        exact hdatagram
      have hleft := stale_not_next hstale
      rw [hhead] at hprogress hmarked
      constructor
      · have hnothing : pollResult a.stack.application.connection size (some content) =
            (.nothing, a.stack.application.connection) := by
          rw [pollResult_read hread, polled, readData_left hleft]
          rfl
        rw [afterReading, hnothing] at hprogress
        exact ⟨hprogress.connection, by simpa [TftpResult.nothing] using hprogress.received⟩
      · intro datagram hsent
        exact unaccepted_sent hmarked hleft (sent_mem_events hsent)
    · exact h.stale poll hearlier content hdatagram hstale

/-- A call after the last block. -/
theorem acknowledging_done (h : Acknowledging a) (hdone : a.stack.application.connection.state = .done)
    (hresult : SameTransfer t.application.connection a.stack.application.connection)
    (htrace : t.trace = a.stack.trace) : Acknowledging ⟨t, ⟨a.stack, size, t⟩ :: a.polls⟩ := by
  obtain ⟨backoff, hconnection⟩ := hresult
  have hevents : transferEvents (⟨a.stack, size, t⟩ :: a.polls) = transferEvents a.polls := by
    rw [transferEvents, List.flatMap_cons, Poll.events, newMarks_same htrace]
    rfl
  constructor
  · show t.application.connection.state = .read ∨ t.application.connection.state = .done
    rw [hconnection]
    exact .inr hdone
  · rw [hevents]
    exact h.honest
  · rw [hevents]
    show t.application.connection.blockNumber.toNat = _
    rw [hconnection]
    exact h.count
  · intro poll hpoll content hdatagram hstale
    rcases List.mem_cons.mp hpoll with rfl | hearlier
    · rw [Poll.datagram, if_neg (by rw [hdone]; decide)] at hdatagram
      cases hdatagram
    · exact h.stale poll hearlier content hdatagram hstale

/-- The transfer starts before block 1. -/
theorem oack_number {head : Option NetworkPacket} (hrequest : connection.state = .request)
    (hread : (handleOack (readOack connection head)).state = .read) :
    (handleOack (readOack connection head)).blockNumber = 0 := by
  generalize hout : readOack connection head = out at hread ⊢
  obtain ⟨status, c⟩ := out
  cases status with
  | ok => rfl
  | error => simp [handleOack] at hread
  | retry =>
    have hkept : c = connection := by
      cases head with
      | none => exact (congrArg Prod.snd hout).symm
      | some p =>
        simp only [readOack] at hout
        split at hout
        · exact (congrArg Prod.snd hout).symm
        · split at hout
          · cases hout
          · exact (congrArg Prod.snd hout).symm
    rw [handleOack, hkept, hrequest] at hread
    cases hread

theorem Downloads.acknowledging (hstart : Reaches Op.exec (fun _ _ => True) (booted application time entropy) start)
    (hread : start.application.connection.state = .read) (hzero : start.application.connection.blockNumber = 0)
    (h : Downloads start a) : Acknowledging a := by
  apply (Downloads.induct hstart h (I := Acknowledging) ?_ ?_ ?_).2
  · refine ⟨.inl hread, trivial, ?_, fun poll hpoll => by cases hpoll⟩
    rw [hzero]
    rfl
  · intro a t ha happlication
    refine ⟨?_, ha.honest, ?_, ha.stale⟩
    · rw [happlication]
      exact ha.state
    · rw [happlication]
      exact ha.count
  · intro a size t hreached ha hreturned
    obtain ⟨_, _, hs⟩ := reaches_intact False hreached fun w => w.elim
    obtain ⟨hconnection, hreceived⟩ := wp_ok (readFile_result size hs) hreturned
    rcases ha.state with hreading | hdone
    · rw [pollResult_read hreading] at hconnection
      apply acknowledging_read ha hreading hconnection
      · refine ⟨?_, hreceived⟩
        rw [afterReading, pollResult_read hreading]
        exact hconnection
      · have hmarks := readFile_marks size hs hreading
        have hmarked := wp_ok hmarks hreturned
        exact hmarked
    · rw [pollResult_over (.inl hdone)] at hconnection
      have hover := readFile_over size (.inl hdone)
      have htrace := wp_ok hover hreturned
      exact acknowledging_done ha hdone hconnection htrace

theorem Acknowledging.stopped (h : Acknowledging a)
    (hreached : Reaches Op.exec (fun _ _ => True) (booted application time entropy) a.stack) {halt : Halt}
    (hstopped : readFile size a.stack = .error halt t) : AcksCount (stoppedEvents a.stack t ++ transferEvents a.polls) := by
  obtain ⟨_, _, hs⟩ := reaches_intact False hreached fun w => w.elim
  apply Honest.acksCount
  rcases h.state with hreading | hdone
  · obtain ⟨read, _, hmarked⟩ := wp_error (readFile_marks size hs hreading) hstopped
    have haccepts : ∀ content, read = some content →
        (decide (TakenAsNext a.stack.application.connection content) = true ↔
          TakenAsNext a.stack.application.connection content) := fun _ _ => decide_eq_true_iff
    exact (honest_marked h.honest h.count hmarked haccepts).1
  · have hover := readFile_over size (.inl hdone)
    have htrace := wp_error hover hstopped
    rw [stoppedEvents, newMarks_same htrace]
    exact h.honest

/-- After an OACK has been accepted, the blocks that are accepted are 1, 2, 3 and so on, every acknowledgement carries
the number of those accepted before it, and a stale datagram changes nothing. -/
theorem acks_honest (hreached : Reaches Op.exec (fun _ _ => True) (booted application time entropy) s)
    (hrequest : s.application.connection.state = .request) (hoack : readFile size s = .ok () start)
    (hread : start.application.connection.state = .read) (h : Downloads start a) : HonestTransfer a := by
  have hstart : Reaches Op.exec (fun _ _ => True) (booted application time entropy) start :=
    hreached.step (.readFile size) trivial hoack
  have hzero : start.application.connection.blockNumber = 0 := by
    obtain ⟨_, _, hs⟩ := reaches_intact False hreached fun w => w.elim
    obtain ⟨⟨backoff, hconnection⟩, _⟩ := wp_ok (readFile_result size hs) hoack
    rw [pollResult_request hrequest] at hconnection
    rw [hconnection] at hread ⊢
    exact oack_number hrequest hread
  have hacknowledging := Downloads.acknowledging hstart hread hzero h
  have hnow : Reaches Op.exec (fun _ _ => True) (booted application time entropy) a.stack :=
    (Downloads.induct hstart h (I := fun _ => True) trivial (fun _ _ _ _ => trivial) fun _ _ _ _ _ _ => trivial).1
  constructor
  · rw [hacknowledging.count]
    exact hacknowledging.honest.numbers
  · exact hacknowledging.honest.acksCount
  · exact hacknowledging.honest.acksGrow
  · exact hacknowledging.stale
  · intro size halt t hstopped
    exact hacknowledging.stopped hnow hstopped

/-- The server at 10.0.0.2 sends the OACK from a port, and the next call reads it. -/
def oackFrom (port : Port) : List Op :=
  [.setOurIp 0x0A000001, .setOurNetmask 0xFFFFFFFF, .downloadFile [102, 0] 0x0A000002,
    .deliverUdp 0 port tftpClientPort (be16Bytes tftpOpcodeOack ++ oackOptions), .receive]

/-- Block 1, of one byte, from port 2000. -/
def byteArrives : List Op := [.deliverUdp 1 2000 tftpClientPort [0, 3, 0, 1, 7], .receive, .readFile 512]

theorem transfer_of_runs {port : Port} {check : Transcript → Bool}
    (hrun : runs Op.exec (fun _ _ => true)
      (fun s => s.application.connection.state = .request && downloadRuns (readFile 512)
        (fun start a => start.application.connection.state = .read && check a) byteArrives s)
      (oackFrom port) (booted zeroApplication 0 fun _ => 0) = true) :
    ∃ s start a, Reaches Op.exec (fun _ _ => True) (booted zeroApplication 0 fun _ => 0) s ∧
      s.application.connection.state = .request ∧ readFile 512 s = .ok () start ∧
      start.application.connection.state = .read ∧ Downloads start a ∧ check a = true := by
  obtain ⟨s, hreached, hcalls⟩ := reaches_of_runs (fun _ _ => True) .start (fun _ _ _ _ => trivial) hrun
  rw [Bool.and_eq_true, decide_eq_true_eq] at hcalls
  obtain ⟨start, a, hoack, ha, hcheck⟩ := downloads_of_runs hcalls.2
  rw [Bool.and_eq_true, decide_eq_true_eq] at hcheck
  exact ⟨s, start, a, hreached, hcalls.1, hoack, hcheck.1, ha, hcheck.2⟩

/-- Block 0 is acknowledged, block 1 accepted and acknowledged. -/
theorem acks_honest_one_block :
    ∃ a, acceptedNumbers (transferEvents a.polls) = [1] ∧ (transferEvents a.polls).length = 3 ∧ HonestTransfer a := by
  have hrun : runs Op.exec (fun _ _ => true)
      (fun s => s.application.connection.state = .request && downloadRuns (readFile 512)
        (fun start a => start.application.connection.state = .read &&
          (acceptedNumbers (transferEvents a.polls) = [1] ∧ (transferEvents a.polls).length = 3)) byteArrives s)
      (oackFrom 2000) (booted zeroApplication 0 fun _ => 0) = true := by
    decide +kernel
  obtain ⟨s, start, a, hreached, hrequest, hoack, hread, ha, hcheck⟩ := transfer_of_runs hrun
  obtain ⟨haccepted, hevents⟩ := of_decide_eq_true hcheck
  exact ⟨a, haccepted, hevents, acks_honest hreached hrequest hoack hread ha⟩

/-- A datagram from another port than the server's changes nothing. -/
def WrongPortLeft (a : Transcript) : Prop :=
  ∀ poll ∈ a.polls, ∀ content, poll.datagram = some content →
    content.sourcePort ≠ poll.before.application.connection.serverPort →
    SameProgress poll.after.application poll.before.application

/-- A call has returned bytes of a datagram from another port. -/
def otherPortBytes (a : Transcript) : Bool :=
  a.polls.any fun poll => poll.after.application.received ≠ poll.before.application.received &&
    poll.datagram.any fun content => content.sourcePort ≠ poll.before.application.connection.serverPort

theorem not_wrongPortLeft (h : otherPortBytes a = true) : ¬ WrongPortLeft a := by
  intro hleft
  obtain ⟨poll, hpoll, hother⟩ := List.any_eq_true.mp h
  rw [Bool.and_eq_true, decide_eq_true_eq, Option.any_eq_true] at hother
  obtain ⟨hbytes, content, hread, hport⟩ := hother
  exact hbytes (hleft poll hpoll content hread (of_decide_eq_true hport)).received

/-- After an OACK from port 69 a block from port 2000 is accepted. -/
theorem other_port_accepted :
    ∃ s start a, Reaches Op.exec (fun _ _ => True) (booted zeroApplication 0 fun _ => 0) s ∧
      s.application.connection.state = .request ∧ readFile 512 s = .ok () start ∧
      start.application.connection.state = .read ∧ Downloads start a ∧ ¬ WrongPortLeft a := by
  have hrun : runs Op.exec (fun _ _ => true)
      (fun s => s.application.connection.state = .request && downloadRuns (readFile 512)
        (fun start a => start.application.connection.state = .read && otherPortBytes a) byteArrives s)
      (oackFrom 69) (booted zeroApplication 0 fun _ => 0) = true := by
    decide +kernel
  obtain ⟨s, start, a, hreached, hrequest, hoack, hread, ha, hcheck⟩ := transfer_of_runs hrun
  exact ⟨s, start, a, hreached, hrequest, hoack, hread, ha, not_wrongPortLeft hcheck⟩

end MiniIp.Guarantees.HonestAcks
