import MiniIp.Invariant.ClientParts
import MiniIp.Invariant.SoundReceive

/-!
# The DHCP and TFTP clients keep the invariant

Most functions of the clients keep the invariant from any state in it; for
these `Keeps` composes. The exceptions are the functions that open a connection,
which need a free one, and `try_read_oack`, which keeps hold of a datagram
that is shorter than its opcode.
-/

set_option autoImplicit false

namespace MiniIp.Invariant

open MiniIp.Source MiniIp.Library.Wp

/-- From any state with the invariant, whatever is known of the UDP queues. -/
def Keeps {α : Type} (W : Prop) (limit most : ℕ) (held : List PacketId) (x : Net α) : Prop :=
  ∀ (U : QueueContent) (s : Stack), Sound W U limit held s →
    wp x (fun _ t => Sound W U limit held t) (Stopped W U limit most) s

variable {W : Prop} {U : QueueContent} {limit most : ℕ}
  {held : List PacketId} {s : Stack} {p q : PacketId}

namespace Keeps

variable {α β : Type}

theorem pure (a : α) : Keeps W limit most held (pure a) := fun _ _ h => h

theorem get : Keeps W limit most held get := fun _ _ h => h

theorem bind {x : Net α} {f : α → Net β} (hx : Keeps W limit most held x)
    (hf : ∀ a, Keeps W limit most held (f a)) : Keeps W limit most held (x >>= f) := by
  intro U s h
  rw [wp_bind]
  exact wp_next (hx U s h) fun a t ht => hf a U t ht

theorem ite {c : Prop} [Decidable c] {x y : Net α} (hx : Keeps W limit most held x)
    (hy : Keeps W limit most held y) : Keeps W limit most held (if c then x else y) := by
  split
  · exact hx
  · exact hy

/-- An assignment to what the invariant does not speak about. -/
theorem assign {f : Stack → Stack} (h : ∀ s, stored (f s) = stored s) :
    Keeps W limit most held (modify f) := fun _ s hs => hs.congr (h s)

theorem emit {event : Event} (hn : Neutral event) (hw : W → InBuffer event) :
    Keeps W limit most held (emit event) := fun _ _ h => h.observe event hn hw

end Keeps

/-- What a computation that only sends leaves of the UDP queues: all of it, contents included. -/
theorem Keeps.queued {α : Type} {x : Net α} (hx : Keeps W limit most held x) (hs : Sends False x)
    (h : Sound W U limit held s) :
    wp x (fun _ t => Sound W U limit held t ∧ SendFrame False s t ∧
      ∀ c, ∀ p ∈ (s.udp.connections c).packetQueue, t.packets p = s.packets p)
      (Stopped W U limit most) s := by
  have hboth := wp_and (hx U s h) (hx _ s h.exactContent)
  refine wp_mono (hs.run hboth) (fun _ t hpost => ?_) fun _ _ ht => ht.1
  obtain ⟨⟨ht, hexact⟩, hframe⟩ := hpost
  refine ⟨ht, hframe, fun c p hp => ?_⟩
  have hsame := hexact.udpContent c p
  rw [hframe.udp] at hsame
  exact hsame hp

theorem modifyDhcp_keeps (f : Dhcp → Dhcp) : Keeps W limit most held (modifyDhcp f) :=
  .assign fun _ => rfl

theorem random_keeps : Keeps W limit most held random :=
  .bind .get fun _ => .bind (.assign fun _ => rfl) fun _ => .pure _

theorem getTime_keeps : Keeps W limit most held getTime := .bind .get fun _ => .pure _

theorem dhcpPacketOptions_length (d : Dhcp) (type : DhcpPacketType) :
    (dhcpPacketOptions d type).length ≤ 15 := by
  cases type <;>
    simp [dhcpPacketOptions, messageTypeOption, requestedIpAddressOption, serverIdentifierOption,
      be32Bytes]

/-- `dhcp_send_packet` builds its packet from the pool and broadcasts it. -/
theorem dhcpSendPacket_keeps (type : DhcpPacketType) (hheld : held.length ≤ most) :
    Keeps W limit most held (dhcpSendPacket type) := by
  intro U s h
  unfold dhcpSendPacket
  rw [wp_bind]
  refine wp_next (allocateNetworkPacket_sound h hheld) fun p t hpost => ?_
  obtain ⟨ht, hindex, _, _⟩ := hpost
  simp only [wp_bind, wp_get, wp_modifyPacket, wp_emit]
  apply udpSendZeroCopy_sound ((ht.write List.mem_cons_self _).observe (.dhcpSent type) trivial
    fun _ => trivial) _ hheld
  intro _
  have hshort := dhcpPacketOptions_length t.dhcp type
  simp only [Fits, Stack.observe_packets, Stack.write_packets, Function.update_self, hindex,
    List.length_append, List.length_cons, List.length_nil, dhcpHeaderSize]
  omega

/-- `dhcp_read` gives the packet back whether it is accepted or not. -/
theorem dhcpRead_keeps : Keeps W limit most held dhcpRead := by
  intro U s h
  unfold dhcpRead
  rw [wp_bind]
  refine wp_next (udpReceiveZeroCopy_sound h) fun taken t hpost => ?_
  obtain ⟨ht, _⟩ := hpost
  cases taken with
  | none => exact ht
  | some p =>
    have hread := ht.congr (t := t.setOptions
      (readDhcpPacket t.dhcp.transactionId t.ourMac (t.packets p) t.options).2) rfl
    exact Sound.freed hread

theorem setOurIp_keeps (ip : Ip) : Keeps W limit most held (setOurIp ip) := .assign fun _ => rfl

theorem setOurNetmask_keeps (netmask : Ip) : Keeps W limit most held (setOurNetmask netmask) :=
  .assign fun _ => rfl

theorem client_keeps (hheld : held.length ≤ most) : ClientParts (fun _ => True) fun _ x => Keeps W limit most held x where
  value := .pure
  state := .get
  next := .bind
  read := dhcpRead_keeps
  assign := modifyDhcp_keeps
  offer := .emit trivial fun _ => trivial
  ack := .emit trivial fun _ => trivial
  send type := dhcpSendPacket_keeps type hheld
  draw := random_keeps
  enter _ _ := .emit trivial fun _ => trivial
  address := setOurIp_keeps
  netmask := setOurNetmask_keeps

theorem dhcpTask_keeps (hheld : held.length ≤ most) : Keeps W limit most held dhcpTask :=
  dhcpTask_of (client_keeps hheld) fun _ => trivial

/-- A connection is free, and its queue size is still within the limit. -/
def CanListen (limit : ℕ) (maxPacketCount : Int) (s : Stack) : Prop :=
  s.udp.freeConnections ≠ [] ∧ limitSum s.udp + maxPacketCount.toNat ≤ limit

theorem dhcpStart_sound (h : Sound W U limit held s) (hlisten : CanListen limit 1 s) :
    wp dhcpStart (fun _ t => Sound W U limit held t) (Stopped W U limit most) s := by
  unfold dhcpStart setDhcpState
  simp only [wp_bind, wp_modifyDhcp, wp_emit, wp_random, wp_getTime]
  have hseen := h.observe (.dhcpState .discover) trivial fun _ => trivial
  exact udpListen_sound (hseen.congr rfl) hlisten.1 hlisten.2

theorem tftpDownloadFile_sound {connection : TftpConnection} {filename : List UInt8} {serverIp : Ip}
    (h : Sound W U limit held s) (hlisten : CanListen limit 1 s) :
    wp (tftpDownloadFile connection filename serverIp) (fun _ t => Sound W U limit held t)
      (Stopped W U limit most) s := by
  unfold tftpDownloadFile
  rw [wp_bind]
  exact wp_next (udpListen_sound h hlisten.1 hlisten.2) fun _ t ht => ht

theorem sendTftpPacket_keeps (connection : TftpConnection) (destPort : Port) (bytes : List UInt8)
    (hheld : held.length ≤ most) (hsize : W → bytes.length ≤ 880) :
    Keeps W limit most held (sendTftpPacket connection destPort bytes) := by
  intro U s h
  apply sendFilled_sound h hheld
  intro old hindex w
  have hshort := hsize w
  refine ⟨hindex, ?_, ?_⟩
  · dsimp only
    omega
  · dsimp only
    omega

/-- The longest name for which the request fits into the user data of a packet. -/
def RequestFits (connection : TftpConnection) : Prop := (filenameString connection).length ≤ 859

theorem sendTftpRequest_keeps (connection : TftpConnection) (hheld : held.length ≤ most)
    (hfits : W → RequestFits connection) : Keeps W limit most held (sendTftpRequest connection) := by
  apply sendTftpPacket_keeps _ _ _ hheld
  intro w
  have hname := hfits w
  unfold RequestFits at hname
  simp only [tftpRequestBytes, stringFollowedByZero, be16Bytes, octetString, blksizeString,
    blockSizeString, List.length_append, List.length_cons, List.length_nil]
  omega

theorem ackCurrentBlock_keeps (connection : TftpConnection) (hheld : held.length ≤ most) :
    Keeps W limit most held (ackCurrentBlock connection) :=
  sendTftpPacket_keeps _ _ _ hheld fun _ => by simp [ackBytes, be16Bytes]

theorem sendErrorTo_keeps (connection : TftpConnection) (destPort : Port) (errorCode : UInt16)
    (errorMessage : List UInt8) (hheld : held.length ≤ most) (hsize : W → errorMessage.length ≤ 875) :
    Keeps W limit most held (sendErrorTo connection destPort errorCode errorMessage) := by
  apply sendTftpPacket_keeps _ _ _ hheld
  intro w
  have hshort := hsize w
  simp only [stringFollowedByZero, be16Bytes, List.length_append, List.length_cons, List.length_nil]
  omega

/-- A datagram at the head of the client's queue that `try_read_oack` never gives back. -/
def ShortHead (connection : TftpConnection) (s : Stack) : Prop :=
  ∃ c p, queueHead s connection.clientPort = some (c, p) ∧ (s.packets p).length < 2

/-- `try_read_oack` keeps hold of at most the one datagram it finds too short. -/
theorem tryReadOack_sound {connection : TftpConnection} (h : Sound W U limit held s) :
    wp (tryReadOack connection)
      (fun _ t => ∃ lost, Sound W U limit (lost ++ held) t ∧ (lost ≠ [] → ShortHead connection s))
      (Stopped W U limit most) s := by
  unfold tryReadOack
  rw [wp_bind]
  refine wp_next (udpReceiveZeroCopy_sound h) fun taken t hpost => ?_
  obtain ⟨ht, htaken⟩ := hpost
  cases taken with
  | none => exact ⟨[], ht, by simp⟩
  | some p =>
    obtain ⟨c, _, hhead, hsame⟩ := htaken p rfl
    simp only [wp_bind, wp_getPacket, wp_ite, wp_pure, wp_freeNetworkPacket]
    split
    · next hshort =>
      rw [hsame] at hshort
      exact ⟨[p], ht, fun _ => ⟨c, p, hhead, hshort⟩⟩
    · split
      · exact ⟨[], Sound.freed ht, by simp⟩
      · exact ⟨[], Sound.freed ht, by simp⟩

/-- `try_read_data` gives the datagram back after the answer has been sent. -/
theorem tryReadData_keeps (connection : TftpConnection) (size : Int)
    (hheld : held.length + 1 ≤ most) : Keeps W limit most held (tryReadData connection size) := by
  intro U s h
  unfold tryReadData
  rw [wp_bind]
  refine wp_next (udpReceiveZeroCopy_sound h) fun taken t hpost => ?_
  obtain ⟨ht, _⟩ := hpost
  cases taken with
  | none => exact ht
  | some p =>
    have hheld' : (p :: held).length ≤ most := hheld
    simp only [wp_bind, wp_getPacket, wp_ite, wp_pure, wp_freeNetworkPacket]
    split
    · have hsend := sendErrorTo_keeps connection (t.packets p).sourcePort tftpErrorUnknownTid
        wrongPortString hheld' (fun _ => by decide) U t ht
      exact wp_next hsend fun _ u hu => hu.freed
    · split
      · have hsend := ackCurrentBlock_keeps connection hheld' U t ht
        exact wp_next hsend fun _ u hu => hu.freed
      · split
        · exact Sound.freed ht
        · exact Sound.freed ht

theorem nextTftpBackoff_keeps (connection : TftpConnection) :
    Keeps W limit most held (nextTftpBackoff connection) :=
  .bind random_keeps fun _ => .bind getTime_keeps fun _ => .pure _

/-- The head of the queue is seen through a state with the same queues and contents. -/
theorem ShortHead.back {connection : TftpConnection} {t : Stack} (h : ShortHead connection t)
    (hudp : t.udp = s.udp)
    (hcontent : ∀ c, ∀ p ∈ (s.udp.connections c).packetQueue, t.packets p = s.packets p) :
    ShortHead connection s := by
  obtain ⟨c, p, hhead, hshort⟩ := h
  have hhead' : queueHead s connection.clientPort = some (c, p) := by
    rw [← hhead, queueHead, queueHead, hudp]
  obtain ⟨_, _, hqueue⟩ := queueHead_some hhead'
  have hsame := hcontent c p (by rw [hqueue]; exact List.mem_cons_self)
  exact ⟨c, p, hhead', hsame ▸ hshort⟩

theorem tftpReadRequestState_sound {connection : TftpConnection} (h : Sound W U limit held s)
    (hheld : held.length ≤ most)
    (hfits : W → backoffTimeout connection.backoff s.time = true → RequestFits connection) :
    wp (tftpReadRequestState connection)
      (fun _ t => ∃ lost, Sound W U limit (lost ++ held) t ∧ (lost ≠ [] → ShortHead connection s))
      (Stopped W U limit most) s := by
  unfold tftpReadRequestState tftpSendOnTimeout
  simp only [wp_bind, wp_getTime, wp_ite, wp_pure]
  split
  · next htimeout =>
    have hsend := (sendTftpRequest_keeps connection hheld fun w => hfits w htimeout).queued
      (sendTftpPacket_sends _ _ _) h
    refine wp_next hsend fun _ t hpost => ?_
    obtain ⟨ht, hframe, hcontent⟩ := hpost
    simp only [nextTftpBackoff, wp_bind, wp_random, wp_getTime, wp_pure]
    have hdrawn : Sound W U limit held t.draw := ht.congr rfl
    apply wp_next (tryReadOack_sound hdrawn)
    intro _ u hpost
    obtain ⟨lost, hu, hlost⟩ := hpost
    refine ⟨lost, hu, fun hne => ?_⟩
    have hshort : ShortHead connection t.draw := hlost hne
    exact hshort.back hframe.udp hcontent
  · exact tryReadOack_sound h

theorem tftpReadReadState_keeps (connection : TftpConnection) (size : Int)
    (hheld : held.length + 1 ≤ most) :
    Keeps W limit most held (tftpReadReadState connection size) := by
  have hfew : held.length ≤ most := by omega
  have hpoll : Keeps W limit most held
      (tftpSendOnTimeout connection (ackCurrentBlock connection)) :=
    .bind getTime_keeps fun _ => .ite
      (.bind (ackCurrentBlock_keeps _ hfew) fun _ => nextTftpBackoff_keeps _) (.pure _)
  refine .bind hpoll fun c => .bind (tryReadData_keeps c size hheld) fun result => .ite ?_ (.pure _)
  exact .ite (.bind (ackCurrentBlock_keeps _ hfew) fun _ => .pure _) (.pure _)

/-- `tftp_read` starts by sending the request. -/
def SendsRequest (connection : TftpConnection) (s : Stack) : Prop :=
  connection.state = .request ∧ backoffTimeout connection.backoff s.time = true

/-- `tftp_read` keeps hold of a datagram in the REQUEST state only. -/
theorem tftpRead_sound {connection : TftpConnection} {size : Int} (h : Sound W U limit held s)
    (hheld : held.length + 1 ≤ most)
    (hfits : W → SendsRequest connection s → RequestFits connection) :
    wp (tftpRead connection size)
      (fun _ t => ∃ lost, Sound W U limit (lost ++ held) t ∧
        (lost ≠ [] → connection.state = .request ∧ ShortHead connection s))
      (Stopped W U limit most) s := by
  unfold tftpRead
  split
  · next hstate =>
    simp only [wp_bind, wp_pure]
    refine wp_next (tftpReadRequestState_sound h (by omega) fun w htimeout => hfits w ⟨hstate, htimeout⟩)
      fun _ t hpost => ?_
    obtain ⟨lost, ht, hlost⟩ := hpost
    exact ⟨lost, ht, fun hne => ⟨hstate, hlost hne⟩⟩
  · exact wp_next (tftpReadReadState_keeps connection size hheld U s h) fun _ t ht =>
      ⟨[], ht, by simp⟩
  · exact ⟨[], h, by simp⟩
  · exact ⟨[], h, by simp⟩

end MiniIp.Invariant
