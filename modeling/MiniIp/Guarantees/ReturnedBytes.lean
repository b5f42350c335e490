import MiniIp.Invariant.ShortDatagram
import MiniIp.Invariant.Transfer

/-!
# What a poll makes of one datagram

`try_read_data` (tftp.c:224) limits the caller's size by
`packet->length - sizeof(TftpDataHeader)`. The difference is a `size_t`: for a
datagram shorter than the header it is huge and limits nothing
(`received_bytes_iff`). `tftp_read` (tftp.c:268) tells the last block by the
number of bytes copied, which is the smaller of the block and the caller's buffer
(`ends_at_short_block_iff`).
-/

set_option autoImplicit false

namespace MiniIp.Guarantees.ReturnedBytes

open MiniIp.Source MiniIp.Invariant MiniIp.Library.Runs MiniIp.Library.Wp

/-- The poll returns bytes of the datagram behind its header and no others, and a datagram without a whole header is as
good as none. -/
structure OnlyReceived (size : Int) (connection : TftpConnection) (content : NetworkPacket)
    (out : TftpResult × TftpConnection) : Prop where
  received : out.1.count ≤ max 0 (content.length - 4)
  room : out.1.count ≤ size
  bytes : out.1.bytes = (content.payload.drop 4).take out.1.count.toNat
  short : content.length < 4 → out.1.bytes = [] ∧ out.2 = { connection with backoff := out.2.backoff }

/-- The poll ends the transfer at a DATA block of less than 512 bytes at most, and drops no byte of a block it accepts. -/
structure EndsAtShortBlock (connection : TftpConnection) (content : NetworkPacket)
    (out : TftpResult × TftpConnection) : Prop where
  done : out.2.state = .done → out.2.blockNumber ≠ connection.blockNumber ∧
    readBe16 content.data content.index = tftpOpcodeData ∧ 4 ≤ content.length ∧ content.length - 4 < 512
  whole : out.2.blockNumber ≠ connection.blockNumber → content.payload.drop 4 <+: out.1.bytes

variable {application : Application} {time : Time} {entropy : ℕ → UInt32} {s t : Stack} {content : NetworkPacket}
  {connection : TftpConnection} {size : Int} {out : TftpResult × TftpConnection} {backoff : Backoff}

theorem taken_number (h : TakenAsNext connection content) :
    readBe16 content.data (content.index + 2) ≠ connection.blockNumber := by
  intro heq
  have hnumber := h.number
  rw [heq] at hnumber
  omega

/-- The block is the current one afterwards. -/
theorem polled_blockNumber (h : TakenAsNext connection content) :
    (polled connection size (some content)).2.blockNumber = readBe16 content.data (content.index + 2) := by
  rw [polled, readData_next h]
  dsimp only
  split
  · rfl
  · split
    · rfl
    · rfl

/-- The transfer is over where at least one and less than 512 bytes have been copied. -/
theorem polled_state (h : TakenAsNext connection content) (hstate : connection.state = .read) :
    (polled connection size (some content)).2.state = .done ↔
      limitDataSize size content.length ≠ 0 ∧ limitDataSize size content.length < 512 := by
  rw [polled, readData_next h]
  dsimp only
  split
  · next hzero => simp [hstate, hzero]
  · next hcount =>
    split
    · next hlast => simp [hcount, hlast]
    · next hlast => simp [hstate, hlast]

theorem polled_count (h : TakenAsNext connection content) :
    (polled connection size (some content)).1.count = limitDataSize size content.length := by
  rw [polled, readData_next h]
  dsimp only
  split
  · next hzero => exact hzero.symm
  · split
    · rfl
    · rfl

theorem polled_bytes (h : TakenAsNext connection content) :
    (polled connection size (some content)).1.bytes =
      readBytes content.data (content.index + tftpDataHeaderSize) (limitDataSize size content.length).toNat := by
  rw [polled, readData_next h]
  dsimp only
  split
  · next hzero =>
    rw [hzero]
    rfl
  · split
    · rfl
    · rfl

/-- The call returns what `polled` says, and the connection but for its backoff. -/
theorem tftpRead_polled (h : Reaches Op.exec (fun _ _ => True) (booted application time entropy) s)
    (hstate : connection.state = .read) (hhead : headDatagram s connection.clientPort = some content)
    (hreturns : tftpRead connection size s = .ok out t) :
    content.length ≤ 1024 ∧ ∃ backoff, out = ((polled connection size (some content)).1,
      { (polled connection size (some content)).2 with backoff := backoff }) := by
  have hintact := reached_short h
  have hshort := hintact.short hhead
  obtain ⟨limit, held, hs⟩ := hintact
  obtain ⟨hresult, ⟨backoff, hconnection⟩, _⟩ := wp_ok (tftpRead_polls size hs hstate) hreturns
  rw [hhead] at hresult hconnection
  exact ⟨hshort, backoff, Prod.ext hresult hconnection⟩

theorem taken_received (h : TakenAsNext connection content) (hlength : 4 ≤ content.length ∧ content.length ≤ 1024)
    (hsize : 0 ≤ size ∧ size < 2147483648) :
    OnlyReceived size connection content ((polled connection size (some content)).1,
      { (polled connection size (some content)).2 with backoff := backoff }) := by
  have hcount : limitDataSize size content.length = min size (content.length - 4) :=
    limitDataSize_whole ⟨hlength.1, by omega⟩ hsize
  constructor
  · rw [polled_count h, hcount]
    omega
  · rw [polled_count h, hcount]
    omega
  · rw [polled_bytes h, polled_count h, hcount, copied_bytes hlength.1 hsize.1]
    have hpayload : (content.payload.drop 4).length = (content.length - 4).toNat := by
      rw [List.length_drop, NetworkPacket.payload, readBytes_length]
      omega
    rcases le_total size (content.length - 4) with hle | hle
    · rw [min_eq_left hle]
    · rw [min_eq_right hle, List.take_of_length_le (by omega), List.take_of_length_le (by omega)]
  · intro hshort
    omega

theorem left_received (h : ¬ TakenAsNext connection content) (hsize : 0 ≤ size) :
    OnlyReceived size connection content ((polled connection size (some content)).1,
      { (polled connection size (some content)).2 with backoff := backoff }) := by
  rw [polled, readData_left h]
  constructor
  · exact le_max_left _ _
  · exact hsize
  · rfl
  · intro _
    exact ⟨rfl, rfl⟩

/-- `tftp_read` returns bytes that were received, and leaves a datagram without a whole header alone, exactly where
the datagram has a header or is not taken for the next block. When the call returns is `tftpRead_returns`. -/
theorem received_bytes_iff (h : Reaches Op.exec (fun _ _ => True) (booted application time entropy) s)
    (hstate : connection.state = .read) (hhead : headDatagram s connection.clientPort = some content)
    (hlength : 1 ≤ content.length) (hsize : 0 ≤ size ∧ size < 2147483648)
    (hreturns : tftpRead connection size s = .ok out t) :
    OnlyReceived size connection content out ↔ 4 ≤ content.length ∨ ¬ TakenAsNext connection content := by
  obtain ⟨hshort, backoff, rfl⟩ := tftpRead_polled h hstate hhead hreturns
  constructor
  · intro hreceived
    by_cases hwhole : 4 ≤ content.length
    · exact .inl hwhole
    · refine .inr fun htaken => taken_number htaken ?_
      obtain ⟨_, hconnection⟩ := hreceived.short (by omega)
      have hnumber := congrArg TftpConnection.blockNumber hconnection
      rw [← polled_blockNumber htaken]
      exact hnumber
  · intro hcondition
    by_cases htaken : TakenAsNext connection content
    · exact taken_received htaken ⟨hcondition.resolve_right (not_not.mpr htaken), hshort⟩ hsize
    · exact left_received htaken hsize.1

/-- The next poll returns, and what it makes of its datagram passes the check. -/
def pollReturns (size : Int) (check : NetworkPacket → TftpResult × TftpConnection → Bool) (s : Stack) : Bool :=
  match headDatagram s s.application.connection.clientPort, tftpRead s.application.connection size s with
  | some content, .ok out _ => s.application.connection.state = .read ∧ check content out
  | _, _ => false

theorem pollReturns_some {check : NetworkPacket → TftpResult × TftpConnection → Bool}
    (h : pollReturns size check s = true) :
    ∃ content out t, s.application.connection.state = .read ∧
      headDatagram s s.application.connection.clientPort = some content ∧
      tftpRead s.application.connection size s = .ok out t ∧ check content out = true := by
  unfold pollReturns at h
  split at h
  · next content out t hhead hreturns =>
    obtain ⟨hstate, hcheck⟩ := of_decide_eq_true h
    exact ⟨content, out, t, hstate, hhead, hreturns, hcheck⟩
  · cases h

/-- The server at 10.0.0.2 has accepted a request, and a frame arrives. -/
def downloadGets (frame : Op) : List Op :=
  [.setOurIp 0x0A000001, .setOurNetmask 0xFFFFFFFF, .downloadFile [102, 0] 0x0A000002,
    .deliverUdp 0 2000 tftpClientPort (be16Bytes tftpOpcodeOack ++ oackOptions), .receive, .readFile 512, frame, .receive]

theorem download_gets {frame : Op} {check : NetworkPacket → TftpResult × TftpConnection → Bool}
    (hrun : runs Op.exec (fun _ _ => true) (pollReturns size check) (downloadGets frame)
      (booted zeroApplication 0 fun _ => 0) = true) :
    ∃ s content out t, Reaches Op.exec (fun _ _ => True) (booted zeroApplication 0 fun _ => 0) s ∧
      s.application.connection.state = .read ∧ headDatagram s s.application.connection.clientPort = some content ∧
      tftpRead s.application.connection size s = .ok out t ∧ check content out = true := by
  obtain ⟨s, hreached, hpoll⟩ := reaches_of_runs (fun _ _ => True) .start (fun _ _ _ _ => trivial) hrun
  obtain ⟨content, out, t, hstate, hhead, hreturns, hcheck⟩ := pollReturns_some hpoll
  exact ⟨s, content, out, t, hreached, hstate, hhead, hreturns, hcheck⟩

/-- A datagram of three bytes, in a frame whose first byte of padding is 1. -/
def headlessFrame : Op := .deliver 1 60 (udpFrame 2000 tftpClientPort [0, 3, 0] ++ [1])

/-- It is returned as 512 bytes. -/
theorem short_datagram_returned :
    ∃ s content out t, Reaches Op.exec (fun _ _ => True) (booted zeroApplication 0 fun _ => 0) s ∧
      s.application.connection.state = .read ∧ headDatagram s s.application.connection.clientPort = some content ∧
      content.length = 3 ∧ tftpRead s.application.connection 512 s = .ok out t ∧ out.1.count = 512 ∧
      ¬ OnlyReceived 512 s.application.connection content out := by
  have hrun : runs Op.exec (fun _ _ => true)
      (pollReturns 512 fun content out => content.length = 3 ∧ out.1.count = 512) (downloadGets headlessFrame)
      (booted zeroApplication 0 fun _ => 0) = true := by
    decide +kernel
  obtain ⟨s, content, out, t, hreached, hstate, hhead, hreturns, hcheck⟩ := download_gets hrun
  obtain ⟨hlength, hcount⟩ := of_decide_eq_true hcheck
  refine ⟨s, content, out, t, hreached, hstate, hhead, hlength, hreturns, hcount, fun h => ?_⟩
  have hreceived := h.received
  rw [hcount, hlength] at hreceived
  exact absurd hreceived (by decide)

/-- A DATA block of one byte. -/
def byteFrame : Op := .deliverUdp 1 2000 tftpClientPort [0, 3, 0, 1, 7]

theorem received_bytes_one :
    ∃ s content out t, Reaches Op.exec (fun _ _ => True) (booted zeroApplication 0 fun _ => 0) s ∧
      s.application.connection.state = .read ∧ headDatagram s s.application.connection.clientPort = some content ∧
      tftpRead s.application.connection 512 s = .ok out t ∧
      OnlyReceived 512 s.application.connection content out := by
  have hrun : runs Op.exec (fun _ _ => true) (pollReturns 512 fun content _ => content.length = 5)
      (downloadGets byteFrame) (booted zeroApplication 0 fun _ => 0) = true := by
    decide +kernel
  obtain ⟨s, content, out, t, hreached, hstate, hhead, hreturns, hcheck⟩ := download_gets hrun
  have hlength : content.length = 5 := of_decide_eq_true hcheck
  have hreceived := received_bytes_iff hreached hstate hhead (by omega) (by decide) hreturns
  exact ⟨s, content, out, t, hreached, hstate, hhead, hreturns, hreceived.mpr (.inl (by omega))⟩

/-- The buffer has room for the whole block, and a short block is DATA. -/
def RoomForBlock (size : Int) (content : NetworkPacket) : Prop :=
  content.length - 4 ≤ size ∧
    (0 < content.length - 4 ∧ content.length - 4 < 512 → readBe16 content.data content.index = tftpOpcodeData)

theorem taken_ends_iff (h : TakenAsNext connection content) (hstate : connection.state = .read)
    (hlength : 4 ≤ content.length ∧ content.length ≤ 1024) (hsize : 1 ≤ size ∧ size < 2147483648) :
    EndsAtShortBlock connection content ((polled connection size (some content)).1,
      { (polled connection size (some content)).2 with backoff := backoff }) ↔ RoomForBlock size content := by
  have hcount : limitDataSize size content.length = min size (content.length - 4) :=
    limitDataSize_whole ⟨hlength.1, by omega⟩ ⟨by omega, hsize.2⟩
  have hbytes : (polled connection size (some content)).1.bytes = (content.payload.drop 4).take size.toNat := by
    rw [polled_bytes h, hcount, copied_bytes hlength.1 (by omega)]
  have hpayload : (content.payload.drop 4).length = (content.length - 4).toNat := by
    rw [List.length_drop, NetworkPacket.payload, readBytes_length]
    omega
  have hdone : (polled connection size (some content)).2.state = .done ↔ _ := polled_state h hstate
  have hblock : (polled connection size (some content)).2.blockNumber ≠ connection.blockNumber := by
    rw [polled_blockNumber h]
    exact taken_number h
  rw [hcount] at hdone
  constructor
  · intro hends
    have hwhole := (hends.whole hblock).length_le
    rw [hbytes, List.length_take, hpayload] at hwhole
    have hroom : content.length - 4 ≤ size := by omega
    refine ⟨hroom, fun hlast => ?_⟩
    exact (hends.done (hdone.mpr (by omega))).2.1
  · rintro ⟨hroom, hdata⟩
    constructor
    · intro hlast
      have hpositive := hdone.mp hlast
      exact ⟨hblock, hdata (by omega), hlength.1, by omega⟩
    · intro _
      rw [hbytes, List.take_of_length_le (by omega)]

theorem short_ends_iff (h : TakenAsNext connection content) (hstate : connection.state = .read)
    (hlength : 1 ≤ content.length ∧ content.length < 4) (hsize : 1 ≤ size ∧ size < 2147483648) :
    EndsAtShortBlock connection content ((polled connection size (some content)).1,
      { (polled connection size (some content)).2 with backoff := backoff }) ↔ 512 ≤ size := by
  have hcount : limitDataSize size content.length = size :=
    limitDataSize_short ⟨by omega, hlength.2⟩ ⟨by omega, hsize.2⟩
  have hdone : (polled connection size (some content)).2.state = .done ↔ _ := polled_state h hstate
  rw [hcount] at hdone
  have hnothing : content.payload.drop 4 = [] := by
    apply List.drop_eq_nil_of_le
    rw [NetworkPacket.payload, readBytes_length]
    omega
  constructor
  · intro hends
    by_contra hsmall
    have hlast := hends.done (hdone.mpr (by omega))
    omega
  · intro hlarge
    constructor
    · intro hlast
      have hless := hdone.mp hlast
      omega
    · intro _
      rw [hnothing]
      exact List.nil_prefix

theorem left_ends (h : ¬ TakenAsNext connection content) (hstate : connection.state = .read) :
    EndsAtShortBlock connection content ((polled connection size (some content)).1,
      { (polled connection size (some content)).2 with backoff := backoff }) := by
  rw [polled, readData_left h]
  constructor
  · intro hlast
    have hread : connection.state = .done := hlast
    rw [hstate] at hread
    cases hread
  · intro hchanged
    exact absurd rfl hchanged

/-- The transfer ends only at a short block and no byte of an accepted block is dropped, exactly where the datagram is
not taken for the next block, or fits the buffer and is DATA if it is short, or has no whole header and the buffer has
512 bytes. When the call returns is `tftpRead_returns`. -/
theorem ends_at_short_block_iff (h : Reaches Op.exec (fun _ _ => True) (booted application time entropy) s)
    (hstate : connection.state = .read) (hhead : headDatagram s connection.clientPort = some content)
    (hlength : 1 ≤ content.length) (hsize : 1 ≤ size ∧ size < 2147483648)
    (hreturns : tftpRead connection size s = .ok out t) :
    EndsAtShortBlock connection content out ↔
      (TakenAsNext connection content → 4 ≤ content.length ∧ RoomForBlock size content ∨
        content.length < 4 ∧ 512 ≤ size) := by
  obtain ⟨hshort, backoff, rfl⟩ := tftpRead_polled h hstate hhead hreturns
  by_cases htaken : TakenAsNext connection content
  · rcases le_or_gt 4 content.length with hwhole | hheaderless
    · rw [taken_ends_iff htaken hstate ⟨hwhole, hshort⟩ hsize]
      constructor
      · intro hroom _
        exact .inl ⟨hwhole, hroom⟩
      · intro hcondition
        rcases hcondition htaken with hroom | hnone
        · exact hroom.2
        · omega
    · rw [short_ends_iff htaken hstate ⟨hlength, hheaderless⟩ hsize]
      constructor
      · intro hlarge _
        exact .inr ⟨hheaderless, hlarge⟩
      · intro hcondition
        rcases hcondition htaken with hroom | hnone
        · omega
        · exact hnone.2
  · exact iff_of_true (left_ends htaken hstate) fun hcontra => absurd hcontra htaken

/-- A whole block of 512 bytes. -/
def wholeFrame : Op := .deliverUdp 1 2000 tftpClientPort ([0, 3, 0, 1] ++ List.replicate 512 7)

/-- Read with a buffer of 100 bytes it ends the transfer. -/
theorem whole_block_truncated :
    ∃ s content out t, Reaches Op.exec (fun _ _ => True) (booted zeroApplication 0 fun _ => 0) s ∧
      s.application.connection.state = .read ∧ headDatagram s s.application.connection.clientPort = some content ∧
      content.length = 516 ∧ tftpRead s.application.connection 100 s = .ok out t ∧ out.1.count = 100 ∧
      out.2.state = .done ∧ ¬ EndsAtShortBlock s.application.connection content out := by
  have hrun : runs Op.exec (fun _ _ => true)
      (pollReturns 100 fun content out => content.length = 516 ∧ out.1.count = 100 ∧ out.2.state = .done)
      (downloadGets wholeFrame) (booted zeroApplication 0 fun _ => 0) = true := by
    decide +kernel
  obtain ⟨s, content, out, t, hreached, hstate, hhead, hreturns, hcheck⟩ := download_gets hrun
  obtain ⟨hlength, hcount, hdone⟩ := of_decide_eq_true hcheck
  refine ⟨s, content, out, t, hreached, hstate, hhead, hlength, hreturns, hcount, hdone, fun h => ?_⟩
  have hlast := (h.done hdone).2.2.2
  rw [hlength] at hlast
  exact absurd hlast (by decide)

theorem ends_at_short_block_one :
    ∃ s content out t, Reaches Op.exec (fun _ _ => True) (booted zeroApplication 0 fun _ => 0) s ∧
      s.application.connection.state = .read ∧ headDatagram s s.application.connection.clientPort = some content ∧
      tftpRead s.application.connection 512 s = .ok out t ∧
      EndsAtShortBlock s.application.connection content out := by
  have hrun : runs Op.exec (fun _ _ => true)
      (pollReturns 512 fun content _ => content.length = 5 ∧ readBe16 content.data content.index = tftpOpcodeData)
      (downloadGets byteFrame) (booted zeroApplication 0 fun _ => 0) = true := by
    decide +kernel
  obtain ⟨s, content, out, t, hreached, hstate, hhead, hreturns, hcheck⟩ := download_gets hrun
  obtain ⟨hlength, hopcode⟩ := of_decide_eq_true hcheck
  have hends := ends_at_short_block_iff hreached hstate hhead (by omega) (by decide) hreturns
  refine ⟨s, content, out, t, hreached, hstate, hhead, hreturns, hends.mpr fun _ => .inl ⟨by omega, by omega, ?_⟩⟩
  intro _
  exact hopcode

end MiniIp.Guarantees.ReturnedBytes
