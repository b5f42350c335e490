import Mathlib.Data.List.Find
import MiniIp.Invariant.ApplicationFrame
import MiniIp.Invariant.Buffer
import MiniIp.Invariant.SoundRun

/-!
# One poll of a download

`polled` says what `tftp_read` in the READ state returns, and what it makes of
the connection, given the datagram at the head of the client's queue. The calls
it makes on the way change neither: they send, and take that datagram out.
-/

set_option autoImplicit false

namespace MiniIp.Invariant

open MiniIp.Source MiniIp.Library.Wp

/-- `try_read_data` on the datagram it takes. -/
def readData (connection : TftpConnection) (size : Int) : Option NetworkPacket → TftpResult × TftpConnection
  | none => (.nothing, connection)
  | some p =>
    let blockNumber := readBe16 p.data (p.index + 2)
    if connection.serverPort ≠ tftpInitialServerPort ∧ connection.serverPort ≠ p.sourcePort then
      (.nothing, connection)
    else if blockNumber.toNat = connection.blockNumber.toNat + 1 then
      let count := limitDataSize size p.length
      (⟨count, readBytes p.data (p.index + tftpDataHeaderSize) count.toNat⟩,
        { connection with blockNumber := blockNumber })
    else
      (.nothing, connection)

/-- `tftp_read` in the READ state, but for the backoff. -/
def polled (connection : TftpConnection) (size : Int) (head : Option NetworkPacket) :
    TftpResult × TftpConnection :=
  let result := readData connection size head
  if result.1.count = 0 then (.nothing, result.2)
  else if result.1.count < 512 then (result.1, { result.2 with state := .done })
  else result

/-- `t` is `s` after the head of the queue of a port has been taken, as far as the queues go. -/
structure Took (s t : Stack) (port : Port) : Prop where
  udp : t.udp = match queueHead s port with
    | none => s.udp
    | some (c, p) => (dequeued s port c p).udp
  taken : ∀ content, headDatagram s port = some content → ∃ p, .udpTaken port p content ∈ t.trace

variable {W : Prop} {U : QueueContent} {limit most : ℕ}
  {held : List PacketId} {s t : Stack} {connection : TftpConnection} {size : Int}

theorem readData_backoff (head : Option NetworkPacket) (backoff : Backoff) :
    readData { connection with backoff := backoff } size head =
      ((readData connection size head).1, { (readData connection size head).2 with backoff := backoff }) := by
  cases head with
  | none => rfl
  | some p =>
    simp only [readData]
    split
    · rfl
    · split
      · rfl
      · rfl

/-- Of the connection only the block number changes. -/
theorem readData_connection (connection : TftpConnection) (size : Int) (head : Option NetworkPacket) :
    (readData connection size head).2 =
      { connection with blockNumber := (readData connection size head).2.blockNumber } := by
  cases head with
  | none => rfl
  | some p =>
    simp only [readData]
    split
    · rfl
    · split
      · rfl
      · rfl

structure TakenAsNext (connection : TftpConnection) (content : NetworkPacket) : Prop where
  port : connection.serverPort = tftpInitialServerPort ∨ connection.serverPort = content.sourcePort
  number : (readBe16 content.data (content.index + 2)).toNat = connection.blockNumber.toNat + 1

theorem readData_next {content : NetworkPacket} (h : TakenAsNext connection content) :
    readData connection size (some content) =
      (⟨limitDataSize size content.length, readBytes content.data (content.index + tftpDataHeaderSize)
        (limitDataSize size content.length).toNat⟩,
        { connection with blockNumber := readBe16 content.data (content.index + 2) }) := by
  have hport : ¬ (connection.serverPort ≠ tftpInitialServerPort ∧ connection.serverPort ≠ content.sourcePort) := by
    intro hforeign
    rcases h.port with heq | heq
    · exact hforeign.1 heq
    · exact hforeign.2 heq
  simp only [readData, if_neg hport, if_pos h.number]

theorem readData_left {content : NetworkPacket} (h : ¬ TakenAsNext connection content) :
    readData connection size (some content) = (.nothing, connection) := by
  simp only [readData]
  split
  · rfl
  · next hport =>
    split
    · next hnumber =>
      have htaken : TakenAsNext connection content := by
        refine ⟨?_, hnumber⟩
        by_cases hinitial : connection.serverPort = tftpInitialServerPort
        · exact .inl hinitial
        · exact .inr (not_not.mp fun hne => hport ⟨hinitial, hne⟩)
      exact absurd htaken h
    · rfl

/-- With a whole header the smaller of the two sizes is copied. -/
theorem limitDataSize_whole {length : Int} (hlength : 4 ≤ length ∧ length < 2147483648)
    (hsize : 0 ≤ size ∧ size < 2147483648) : limitDataSize size length = min size (length - 4) := by
  unfold limitDataSize sizeT tftpDataHeaderSize
  rw [Int.emod_eq_of_lt (by omega) (by omega), Int.emod_eq_of_lt (by omega) (by omega)]
  split <;> omega

/-- The difference of a shorter datagram is a huge `size_t`. -/
theorem limitDataSize_short {length : Int} (hlength : 0 ≤ length ∧ length < 4) (hsize : 0 ≤ size ∧ size < 2147483648) :
    limitDataSize size length = size := by
  unfold limitDataSize sizeT tftpDataHeaderSize
  rw [if_pos (by omega)]

/-- What is copied are the bytes behind the header, as far as the caller's buffer goes. -/
theorem copied_bytes {content : NetworkPacket} (hlength : 4 ≤ content.length) (hsize : 0 ≤ size) :
    readBytes content.data (content.index + tftpDataHeaderSize) (min size (content.length - 4)).toNat =
      (content.payload.drop 4).take size.toNat := by
  have hbehind : content.payload.drop 4 = readBytes content.data (content.index + 4) (content.length - 4).toNat := by
    have hrest : content.length.toNat - 4 = (content.length - 4).toNat := by omega
    rw [NetworkPacket.payload, drop_readBytes, hrest]
    rfl
  rw [hbehind, tftpDataHeaderSize]
  rcases le_total size (content.length - 4) with hle | hle
  · rw [min_eq_left hle, take_readBytes _ _ (by omega)]
  · rw [min_eq_right hle, List.take_of_length_le (by rw [readBytes_length]; omega)]

theorem Took.later {u : Stack} {port : Port} (h : Took s t port) (hudp : u.udp = t.udp)
    (htrace : t.trace <:+ u.trace) : Took s u port := by
  refine ⟨hudp.trans h.udp, fun content hcontent => ?_⟩
  obtain ⟨p, hp⟩ := h.taken content hcontent
  exact ⟨p, htrace.subset hp⟩

theorem Took.earlier {u : Stack} {port : Port} (h : Took t u port) (hudp : t.udp = s.udp)
    (hhead : headDatagram t port = headDatagram s port) : Took s u port := by
  have hqueue : queueHead t port = queueHead s port := by rw [queueHead, queueHead, hudp]
  refine ⟨?_, fun content hcontent => h.taken content (hhead.trans hcontent)⟩
  rw [h.udp, hqueue]
  split
  · exact hudp
  · simp [dequeued, Stack.setConnection, hudp]

theorem findConnection_listeners (h : listeners t.udp = listeners s.udp) (port : Port) :
    findConnection t.udp port = findConnection s.udp port := by
  unfold findConnection
  rw [listeners_used h]
  congr 1
  funext c
  rw [listeners_port h c]

theorem queueHead_client {client : UdpConnectionId} {port : Port}
    (hfound : findConnection s.udp port = some client) {c : UdpConnectionId} {p : PacketId}
    (hqueue : queueHead s port = some (c, p)) : c = client := by
  rw [queueHead, hfound] at hqueue
  simp only [Option.bind_some, Option.map_eq_some_iff, Prod.mk.injEq] at hqueue
  obtain ⟨_, _, heq, _⟩ := hqueue
  exact heq.symm

/-- Opening another port leaves the connection of this one. -/
theorem udpListen_finds {client : UdpConnectionId} (h : UdpTable limit s.udp) {port : Port} (maxPacketCount : Int)
    {other : Port} (hne : other ≠ port) (hfound : findConnection s.udp port = some client) :
    wp (udpListen other maxPacketCount)
      (fun _ t => findConnection t.udp port = some client ∧
        (t.udp.connections client).maxPacketCount = (s.udp.connections client).maxPacketCount)
      (fun _ _ => True) s := by
  unfold udpListen
  simp only [wp_bind, wp_get]
  split
  · trivial
  · next c rest hfree =>
    simp only [wp_bind, wp_modify, wp_modifyConnection]
    have hunused : ∀ a ∈ s.udp.usedConnections, a ≠ c := by
      intro a ha heq
      have hnodup := h.nodup
      rw [hfree] at hnodup
      subst heq
      simp [ha] at hnodup
    have hclient := hunused client (findConnection_mem hfound).1
    constructor
    · unfold findConnection at hfound ⊢
      simp only [Stack.setConnectionLists_udp_usedConnections, Stack.setConnection_udp_usedConnections,
        Stack.setConnectionLists_udp_connections, Stack.setConnection_udp_connections, List.find?_cons,
        Function.update_self, decide_eq_false hne]
      rw [← hfound]
      apply List.find?_congr
      intro a ha
      rw [Function.update_of_ne (hunused a ha)]
    · simp [Function.update_of_ne hclient]

theorem sendTftpPacket_emits (connection : TftpConnection) (destPort : Port) (bytes : List UInt8)
    (s : Stack) :
    wp (sendTftpPacket connection destPort bytes)
      (fun _ t => .udpSend connection.clientPort destPort connection.serverIp bytes ∈ t.trace)
      (fun _ _ => True) s := by
  unfold sendTftpPacket udpSendZeroCopy
  rw [wp_bind]
  apply wp_partial ((allocateNetworkPacket_spares : Spares False _) s)
  intro p t _
  simp only [wp_bind, wp_modifyPacket, wp_getPacket, wp_emit, wp_recordWindow, wp_get]
  apply wp_partial ((ipSend_delivers p connection.serverIp ipProtocolUdp).sends _)
  intro _ u hframe
  obtain ⟨new, htrace, _⟩ := hframe.trace
  have hpayload := readBytes_writeBytes bytes (t.packets p).index (t.packets p).data
  rw [htrace]
  apply List.mem_append_right
  simp [NetworkPacket.payload, hpayload]

/-- The acknowledgement that is repeated on a timeout leaves the queue as it is. -/
theorem ackOnTimeout (h : Sound W U limit held s) :
    wp (tftpSendOnTimeout connection (ackCurrentBlock connection))
      (fun c t => (∃ backoff, c = { connection with backoff := backoff }) ∧ t.udp = s.udp ∧
        headDatagram t connection.clientPort = headDatagram s connection.clientPort)
      (fun _ _ => True) s := by
  unfold tftpSendOnTimeout nextTftpBackoff
  simp only [wp_bind, wp_getTime, wp_ite, wp_pure, wp_random]
  split
  · have hsend := (ackCurrentBlock_keeps connection (le_refl _)).queued (sendTftpPacket_sends _ _ _) h
    apply wp_partial hsend
    intro _ t ht
    obtain ⟨_, hframe, hcontent⟩ := ht
    exact ⟨⟨_, rfl⟩, hframe.udp, headDatagram_of_kept (t := t.draw) hframe.udp _ hcontent⟩
  · exact ⟨⟨connection.backoff, rfl⟩, by simp⟩

/-- `try_read_data` takes the head of the queue and makes of it what `readData` says. -/
theorem tryReadData_reads (h : UdpTable limit s.udp) :
    wp (tryReadData connection size)
      (fun out t => out = readData connection size (headDatagram s connection.clientPort) ∧
        Took s t connection.clientPort) (fun _ _ => True) s := by
  unfold tryReadData
  rw [wp_bind, wp_udpReceiveZeroCopy h]
  split
  · next hhead =>
    have hnone : headDatagram s connection.clientPort = none := by simp [headDatagram, hhead]
    simp only [wp_pure, hnone]
    exact ⟨rfl, by simp [hhead], by simp [hnone]⟩
  · next c p hhead =>
    have hsome : headDatagram s connection.clientPort = some (s.packets p) := by
      simp [headDatagram, hhead]
    have htook : Took s (dequeued s connection.clientPort c p) connection.clientPort := by
      refine ⟨by simp [hhead], fun content hcontent => ⟨p, ?_⟩⟩
      rw [hsome] at hcontent
      obtain rfl := Option.some.inj hcontent
      exact List.mem_cons_self
    have hanswer : ∀ (destPort : Port) (bytes : List UInt8),
        wp (sendTftpPacket connection destPort bytes)
          (fun _ t => ∀ q, Took s ((t.setPool (q :: t.freeNetworkPackets)).observe (.freed q))
            connection.clientPort)
          (fun _ _ => True) (dequeued s connection.clientPort c p) := by
      intro destPort bytes
      apply wp_partial (sendTftpPacket_sends connection destPort bytes _)
      intro _ t hframe q
      have hgrown := (ApplicationFrame.ofClient (.ofSend hframe) : ApplicationFrame True _ _).trace
      exact htook.later hframe.udp (hgrown.trans (List.suffix_cons _ _))
    have hcontent : (dequeued s connection.clientPort c p).packets p = s.packets p := rfl
    rw [hsome]
    simp only [wp_bind, wp_getPacket, wp_ite, wp_pure, wp_freeNetworkPacket, readData, hcontent]
    split
    · exact wp_next (hanswer _ _) fun _ t ht => ⟨rfl, ht p⟩
    · split
      · next hrepeat =>
        have hnot : ¬ (readBe16 (s.packets p).data ((s.packets p).index + 2)).toNat =
            connection.blockNumber.toNat + 1 := by
          rw [hrepeat]
          omega
        rw [if_neg hnot]
        exact wp_next (hanswer _ _) fun _ t ht => ⟨rfl, ht p⟩
      · split
        · exact ⟨rfl, htook.later rfl (List.suffix_cons _ _)⟩
        · exact ⟨rfl, htook.later rfl (List.suffix_cons _ _)⟩

/-- A poll in the READ state returns what `polled` says. The last block is acknowledged. -/
theorem tftpRead_polls (size : Int) (h : Sound W U limit held s) (hstate : connection.state = .read) :
    wp (tftpRead connection size)
      (fun out t =>
        out.1 = (polled connection size (headDatagram s connection.clientPort)).1 ∧
        (∃ backoff, out.2 = { (polled connection size (headDatagram s connection.clientPort)).2 with
          backoff := backoff }) ∧
        Took s t connection.clientPort ∧
        (out.2.state = .done → .udpSend connection.clientPort connection.serverPort connection.serverIp
          (ackBytes out.2.blockNumber) ∈ t.trace))
      (fun _ _ => True) s := by
  unfold tftpRead tftpReadReadState
  rw [hstate]
  simp only [wp_bind]
  have hack : wp (tftpSendOnTimeout connection (ackCurrentBlock connection))
      (fun c t => ((∃ backoff, c = { connection with backoff := backoff }) ∧ t.udp = s.udp ∧
        headDatagram t connection.clientPort = headDatagram s connection.clientPort) ∧
        UdpTable limit t.udp) (fun _ _ => True) s := by
    apply wp_next (ackOnTimeout h)
    intro c t ht
    exact ⟨ht, ht.2.1 ▸ h.udp⟩
  apply wp_next hack
  intro c t ht
  obtain ⟨⟨⟨backoff, rfl⟩, hudp, hhead⟩, htable⟩ := ht
  have hconnection := readData_connection connection size
    (headDatagram s connection.clientPort)
  have htook : ∀ {u}, Took t u connection.clientPort → Took s u connection.clientPort :=
    fun hu => hu.earlier hudp hhead
  apply wp_next (tryReadData_reads htable)
  intro out u hout
  obtain ⟨rfl, hu⟩ := hout
  rw [hhead, readData_backoff, polled]
  generalize readData connection size (headDatagram s connection.clientPort) = result at hconnection ⊢
  obtain ⟨result, c⟩ := result
  obtain ⟨blockNumber, rfl⟩ : ∃ b, c = { connection with blockNumber := b } := ⟨_, hconnection⟩
  simp only [wp_ite, wp_bind, wp_pure]
  split
  · split
    · have hack := wp_and (sendTftpPacket_emits connection connection.serverPort (ackBytes blockNumber) u)
        (sendTftpPacket_sends connection _ _ u)
      apply wp_partial hack
      intro _ v hv
      obtain ⟨hsent, hframe⟩ := hv
      exact ⟨rfl, ⟨_, rfl⟩, (htook hu).later hframe.udp (ApplicationFrame.ofClient (.ofSend hframe) : ApplicationFrame True _ _).trace,
        fun _ => hsent⟩
    · exact ⟨rfl, ⟨_, rfl⟩, htook hu, fun hdone => by simp [resetTftpBackoff, hstate] at hdone⟩
  · next hcount =>
    rw [if_pos (not_not.mp hcount)]
    exact ⟨rfl, ⟨backoff, rfl⟩, htook hu, fun hdone => by simp [hstate] at hdone⟩

/-- The outcome of a poll in the REQUEST state: the transfer starts before block 1, or not yet. -/
theorem tftpRead_requests (hstate : connection.state = .request) :
    wp (tftpRead connection size)
      (fun out _ => out.1 = .nothing ∧ out.2.state ≠ .done ∧
        (out.2.state = .read → out.2.blockNumber = 0))
      (fun _ _ => True) s := by
  unfold tftpRead tftpReadRequestState
  rw [hstate]
  simp only [wp_bind, wp_pure]
  have hpoll : wp (tftpSendOnTimeout connection (sendTftpRequest connection))
      (fun c _ => c.state = .request) (fun _ _ => True) s := by
    unfold tftpSendOnTimeout nextTftpBackoff
    simp only [wp_bind, wp_getTime, wp_ite, wp_pure, wp_random, hstate]
    split
    · exact wp_next (wp_true _) fun _ _ _ => trivial
    · trivial
  apply wp_next hpoll
  intro c t hc
  have hoack : wp (tryReadOack c) (fun out _ => out.2.state = .request) (fun _ _ => True) t := by
    unfold tryReadOack
    rw [wp_bind]
    apply wp_next (wp_true _)
    intro taken u _
    cases taken with
    | none => exact hc
    | some p =>
      simp only [wp_bind, wp_getPacket, wp_ite, wp_pure, wp_freeNetworkPacket]
      split
      · exact hc
      · split
        · exact hc
        · exact hc
  apply wp_next hoack
  intro out u hout
  obtain ⟨status, c'⟩ := out
  have hrequest : c'.state = .request := hout
  cases status with
  | ok => exact ⟨trivial, by simp [handleOack], fun _ => rfl⟩
  | error => exact ⟨trivial, by simp [handleOack], by simp [handleOack]⟩
  | retry => exact ⟨trivial, by simp [handleOack, hrequest], by simp [handleOack, hrequest]⟩

/-- What a poll in the READ state does, all in all. -/
structure Polled (size : Int) (s t : Stack) : Prop where
  application : ∃ backoff, t.application =
    ⟨{ (polled s.application.connection size
        (headDatagram s s.application.connection.clientPort)).2 with backoff := backoff },
      s.application.received ++ (polled s.application.connection size
        (headDatagram s s.application.connection.clientPort)).1.bytes, s.application.residue⟩
  took : Took s t s.application.connection.clientPort
  acked : t.application.connection.state = .done →
    .udpSend s.application.connection.clientPort s.application.connection.serverPort
      s.application.connection.serverIp (ackBytes t.application.connection.blockNumber) ∈ t.trace
  trace : s.trace <:+ t.trace
  listeners : listeners t.udp = listeners s.udp

theorem readFile_polls (size : Int) (h : Sound W U limit held s) (hstate : s.application.connection.state = .read) :
    wp (readFile size) (fun _ t => Polled size s t) (fun _ _ => True) s := by
  unfold readFile
  simp only [wp_bind, wp_get, wp_modify]
  apply wp_partial (wp_and (tftpRead_polls size h hstate) ((tftpRead_spares _ size : Spares False _) s))
  intro out t hpost
  obtain ⟨⟨hout, ⟨backoff, hconnection⟩, htook, hacked⟩, hframe⟩ := hpost
  have happlication := hframe.application
  have hkept : ApplicationFrame True s t := .ofClient hframe
  constructor
  · exact ⟨backoff, by rw [hconnection, hout, happlication]⟩
  · exact htook.later rfl List.suffix_rfl
  · exact hacked
  · exact hkept.trace
  · exact hkept.listeners trivial

end MiniIp.Invariant
