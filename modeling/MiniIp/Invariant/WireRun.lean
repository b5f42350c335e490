import MiniIp.Invariant.Emission
import MiniIp.Invariant.WireInvariant

/-!
# Every call keeps an invariant of what is sent

The clients send first and assign to the state of the stack afterwards, so the address in a frame is one that the host
has had when the call started. The application frames no packet itself and leaves room for the headers, the host's
addresses stay in `addresses`, and the ARP frames it receives tell the truth (`Conforming`).
-/

set_option autoImplicit false

namespace MiniIp.Invariant

open MiniIp.Source MiniIp.Library.Runs MiniIp.Library.Wp

variable {addresses : Ip → Prop} {owner : Ip → Mac → Prop} {P : Stack → Prop} {U : QueueContent} {limit : ℕ}
  {held : List PacketId} {s t : Stack}

theorem modifyDhcp_idles (f : Dhcp → Dhcp) : Idles (modifyDhcp f) := .assign fun _ => ⟨rfl, rfl, rfl⟩

theorem getTime_idles : Idles getTime := fun s => Idle.refl s

theorem getPacket_idles (packet : PacketId) : Idles (getPacket packet) := fun s => Idle.refl s

theorem random_idles : Idles random := fun _ => Idle.assign rfl rfl rfl

theorem modifyConnection_idles (connection : UdpConnectionId) (f : UdpConnection → UdpConnection) :
    Idles (modifyConnection connection f) := fun _ => Idle.assign rfl rfl rfl

theorem setDhcpState_idles (state : DhcpState) : Idles (setDhcpState state) :=
  Idles.bind (modifyDhcp_idles _) fun _ => .emit rfl

theorem udpListen_idles (port : Port) (maxPacketCount : Int) : Idles (udpListen port maxPacketCount) := by
  have hlists : ∀ f : Stack → List UdpConnectionId × List UdpConnectionId,
      Idles (modify fun s => s.setConnectionLists (f s).1 (f s).2) := fun f s => Idle.assign rfl rfl rfl
  refine Idles.bind .get fun s => ?_
  split
  · exact .throw _
  · exact Idles.bind (hlists fun s => (_, s.udp.usedConnections)) fun _ => Idles.bind (modifyConnection_idles _ _) fun _ =>
      hlists fun s => (s.udp.freeConnections, _ :: s.udp.usedConnections)

/-- Reading sends nothing and leaves the packets alone. -/
theorem udpReceiveZeroCopy_idles (port : Port) : Idles (udpReceiveZeroCopy port) := by
  refine Idles.bind .get fun s => ?_
  split
  · exact .pure _
  · refine Idles.bind .get fun t => Idles.ite (.pure _) ?_
    split
    · exact .throw _
    · exact Idles.bind (modifyConnection_idles _ _) fun _ => Idles.bind (getPacket_idles _) fun _ =>
        Idles.bind (.emit rfl) fun _ => .pure _

theorem udpReceive_idles (size : Int) (port : Port) : Idles (udpReceive size port) := by
  refine Idles.bind (udpReceiveZeroCopy_idles port) fun taken => ?_
  cases taken with
  | none => exact .pure _
  | some packet =>
    exact Idles.bind (getPacket_idles _) fun _ => Idles.bind (freeNetworkPacket_idles _) fun _ => .pure _

theorem dhcpStart_idles : Idles dhcpStart :=
  Idles.bind (setDhcpState_idles _) fun _ => Idles.bind random_idles fun _ => Idles.bind getTime_idles fun _ =>
    Idles.bind (modifyDhcp_idles _) fun _ => udpListen_idles _ _

/-- What the client does when it has sent. -/
theorem answer_idles : AnswerParts (fun _ => True) fun _ x => Idles x where
  value := .pure
  state := .get
  next := Idles.bind
  read := by
    apply dhcpRead_of ⟨.pure, .get, Idles.bind⟩
    · exact udpReceiveZeroCopy_idles _
    · exact getPacket_idles
    · exact fun _ => .assign fun _ => ⟨rfl, rfl, rfl⟩
    · exact freeNetworkPacket_idles
  assign := modifyDhcp_idles
  offer := .emit rfl
  ack := .emit rfl
  enter _ _ := .emit rfl

theorem tryReadOack_idles (connection : TftpConnection) : Idles (tryReadOack connection) := by
  refine Idles.bind (udpReceiveZeroCopy_idles _) fun taken => ?_
  cases taken with
  | none => exact .pure _
  | some packet =>
    refine Idles.bind (getPacket_idles _) fun p => Idles.ite (.pure _) (Idles.bind (freeNetworkPacket_idles _) fun _ => ?_)
    split
    · exact .pure _
    · exact .pure _

theorem nextTftpBackoff_idles (connection : TftpConnection) : Idles (nextTftpBackoff connection) :=
  Idles.bind random_idles fun _ => Idles.bind getTime_idles fun _ => .pure _

/-- The operation leaves room for its headers and for what it sends, sends no packet of its own making, does not assign
a foreign address to the host, and brings no false answer. -/
structure Conforming (addresses : Ip → Prop) (owner : Ip → Mac → Prop) (s : Stack) (op : Op) : Prop where
  room : LeavesRoom s op
  framed : ∀ bytes ip, op ≠ .sendToIp bytes ip
  address : ∀ t, op.exec s = .ok () t → addresses t.ourIp
  truth : op = .receive → HearsTruth owner s

/-- What has happened stays in the trace. -/
theorem exec_past (op : Op) : wp op.exec (fun _ t => s.trace <:+ t.trace) (fun _ _ => True) s := by
  have hsuffix := execAll_suffix [op] s
  have hrun : execAll [op] s = (op.exec >>= fun _ => execAll []) s := rfl
  rw [hrun] at hsuffix
  simp only [bind, EStateM.bind] at hsuffix
  unfold wp
  cases hexec : op.exec s with
  | ok _ t =>
    rw [hexec] at hsuffix
    exact hsuffix
  | error _ _ => trivial

/-- What a part of the client keeps, so that the next part may send again. -/
def KeepsWire {α : Type} (addresses : Ip → Prop) (P : Stack → Prop) (limit : ℕ) (held : List PacketId)
    (x : Net α) : Prop :=
  ∀ (U : QueueContent) (s : Stack), Sound False U limit held s → P s → addresses s.ourIp →
    wp x (fun _ t => Sound False U limit held t ∧ P t ∧ addresses t.ourIp) (fun _ _ => True) s

namespace KeepsWire

variable {α β : Type} {x y : Net α} {most n : ℕ}

theorem pure (a : α) : KeepsWire addresses P limit held (pure a : Net α) := fun _ _ hs h hown => ⟨hs, h, hown⟩

theorem bind {f : α → Net β} (hx : KeepsWire addresses P limit held x)
    (hf : ∀ a, KeepsWire addresses P limit held (f a)) :
    KeepsWire addresses P limit held (x >>= f) := by
  intro U s hs h hown
  rw [wp_bind]
  apply wp_next (hx U s hs h hown)
  rintro a t ⟨ht, hafter, hown'⟩
  exact hf a U t ht hafter hown'

theorem ite {c : Prop} [Decidable c] (hx : KeepsWire addresses P limit held x) (hy : KeepsWire addresses P limit held y) :
    KeepsWire addresses P limit held (if c then x else y) := by
  split
  · exact hx
  · exact hy

/-- The three parts are proved on their own. -/
theorem of (hkeeps : Keeps False limit most held x) (htransmits : Transmits addresses n x)
    (hafter : ∀ (U : QueueContent) (s : Stack), Sound False U limit held s → P s → addresses s.ourIp →
      wp x (fun _ t => P t) (fun _ _ => True) s) : KeepsWire addresses P limit held x := by
  intro U s hs h hown
  apply wp_partial (wp_and (hkeeps U s hs) (wp_and (hafter U s hs h hown) (htransmits s)))
  rintro a t ⟨ht, hafter', htransmitted⟩
  exact ⟨ht, hafter', htransmitted.address hown⟩

theorem idle (hP : WireInvariant addresses owner P) (hkeeps : Keeps False limit most held x)
    (htransmits : Transmits addresses n x) (hidle : Idles x) :
    KeepsWire addresses P limit held x := of hkeeps htransmits fun _ _ _ h _ => hidle.wired hP h

end KeepsWire

section Calls

variable (hP : WireInvariant addresses owner P)

include hP

theorem wp_wired_then {α β : Type} {x : Net α} {f : α → Net β}
    (hx : wp x (fun _ t => P t) (fun _ _ => True) s)
    (hf : ∀ a, Idles (f a)) : wp (x >>= f) (fun _ t => P t) (fun _ _ => True) s := by
  rw [wp_bind]
  apply wp_next hx
  intro a t ht
  exact (hf a).wired hP ht

/-- The client sends from the address that the host has at this time. -/
theorem dhcpSendOnTimeout_wired (hs : Sound False U limit held s) (h : P s) (hown : addresses s.ourIp)
    (type : DhcpPacketType) :
    wp (dhcpSendOnTimeout type) (fun _ t => P t) (fun _ _ => True) s := by
  unfold dhcpSendOnTimeout
  rw [wp_bind, wp_get, wp_bind, wp_getTime, wp_ite]
  split
  · apply wp_wired_then hP (dhcpSendPacket_wired hP hs h hown type)
    intro _
    exact Idles.bind random_idles fun _ => Idles.bind getTime_idles fun _ => modifyDhcp_idles _
  · exact h

/-- From an intact state, and from an address in `addresses`. -/
theorem dhcpRenew_wired (hs : Sound False U limit held s) (h : P s) (hown : addresses s.ourIp) :
    wp dhcpRenew (fun _ t => P t) (fun _ _ => True) s := by
  rw [dhcpRenew_eq]
  apply wp_wired_then hP (dhcpSendOnTimeout_wired hP hs h hown _)
  intro _
  exact afterRenew_of answer_idles trivial trivial

/-- From an intact state, and from an address in `addresses`. -/
theorem dhcpTask_wired (hs : Sound False U limit held s) (h : P s) (hown : addresses s.ourIp) :
    wp dhcpTask (fun _ t => P t) (fun _ _ => True) s := by
  unfold dhcpTask
  rw [wp_bind, wp_get]
  split
  · exact h
  · rw [dhcpDiscoverTask_eq]
    apply wp_wired_then hP (dhcpSendOnTimeout_wired hP hs h hown _)
    intro _
    exact afterDiscover_of answer_idles trivial
  · rw [dhcpRequestingTask_eq]
    apply wp_wired_then hP (dhcpSendOnTimeout_wired hP hs h hown _)
    intro _
    have hassign : ∀ f : Stack → Stack, (∀ s, (f s).packets = s.packets ∧ (f s).arp = s.arp ∧ (f s).trace = s.trace) →
        Idles (modify f : Net Unit) := fun f hf => .assign hf
    apply afterRequest_of answer_idles
    · exact fun _ => hassign _ fun _ => ⟨rfl, rfl, rfl⟩
    · exact fun _ => hassign _ fun _ => ⟨rfl, rfl, rfl⟩
    · trivial
    · trivial
  · exact (dhcpBoundTask_of answer_idles trivial).wired hP h
  · unfold dhcpRenewingTask
    simp only [wp_bind, wp_get, wp_getTime, wp_ite]
    split
    · let left := (s.setDhcp { s.dhcp with state := .rebinding }).observe (.dhcpState .rebinding)
      have hleft : Sound False U limit held left :=
        Sound.observe (s := s.setDhcp { s.dhcp with state := .rebinding }) (hs.congr rfl) (.dhcpState .rebinding) trivial
          False.elim
      have hidle : Idle s left := by
        apply Idle.trans (t := s.setDhcp { s.dhcp with state := .rebinding })
        · exact Idle.assign rfl rfl rfl
        · exact Idle.observe rfl _
      exact dhcpRenew_wired hP hleft (hP.idle h hidle) hown
    · exact dhcpRenew_wired hP hs h hown
  · exact (dhcpRebindingTask_of answer_idles trivial).wired hP h
  · exact h

theorem sendTftpPacket_keepsWire (connection : TftpConnection) (destPort : Port) {bytes : List UInt8}
    (hsize : bytes.length ≤ 880) :
    KeepsWire addresses P limit held (sendTftpPacket connection destPort bytes) := by
  apply KeepsWire.of (sendTftpPacket_keeps connection destPort bytes (le_refl _) False.elim) (sendTftpPacket_transmits _ _ _)
  intro U s hs h hown
  exact sendTftpPacket_wired hP hs h hown connection destPort hsize

theorem sendTftpRequest_keepsWire {connection : TftpConnection} (hfits : RequestFits connection) :
    KeepsWire addresses P limit held (sendTftpRequest connection) := by
  apply sendTftpPacket_keepsWire hP
  unfold RequestFits at hfits
  simp only [tftpRequestBytes, stringFollowedByZero, be16Bytes, octetString, blksizeString, blockSizeString,
    List.length_append, List.length_cons, List.length_nil]
  omega

theorem ackCurrentBlock_keepsWire (connection : TftpConnection) :
    KeepsWire addresses P limit held (ackCurrentBlock connection) := by
  apply sendTftpPacket_keepsWire hP
  simp [ackBytes, be16Bytes]

theorem sendErrorTo_keepsWire (connection : TftpConnection) (destPort : Port) (errorCode : UInt16) {errorMessage : List UInt8}
    (hsize : errorMessage.length ≤ 875) :
    KeepsWire addresses P limit held (sendErrorTo connection destPort errorCode errorMessage) := by
  apply sendTftpPacket_keepsWire hP
  simp only [stringFollowedByZero, be16Bytes, List.length_append, List.length_cons, List.length_nil]
  omega

theorem tftpSendOnTimeout_keepsWire {connection : TftpConnection} {send : Net Unit}
    (hsend : KeepsWire addresses P limit held send) :
    KeepsWire addresses P limit held (tftpSendOnTimeout connection send) := by
  have htime : KeepsWire addresses P limit held getTime := by
    have hkeeps : Keeps False limit 0 held getTime := getTime_keeps
    exact KeepsWire.idle hP hkeeps (getTime_transmits (n := 0)) getTime_idles
  have hrandom : KeepsWire addresses P limit held random := by
    have hkeeps : Keeps False limit 0 held random := random_keeps
    exact KeepsWire.idle hP hkeeps (random_transmits (n := 0)) random_idles
  have hsends : KeepsWire addresses P limit held (do send; nextTftpBackoff connection) :=
    KeepsWire.bind hsend fun _ => KeepsWire.bind hrandom fun _ => KeepsWire.bind htime fun _ => .pure _
  exact KeepsWire.bind htime fun _ => KeepsWire.ite hsends (.pure _)

/-- A datagram is answered while it is held. -/
theorem tryReadData_keepsWire (connection : TftpConnection) (size : Int) :
    KeepsWire addresses P limit held (tryReadData connection size) := by
  have htransmits : Transmits addresses 1 (tryReadData connection size) := by
    have hthen := tryReadData_transmits (P := addresses) connection size (fun out => Transmits.pure out)
      fun out _ => Transmits.pure out
    intro s
    simpa only [wp_bind, wp_pure] using hthen s
  apply KeepsWire.of (tryReadData_keeps connection size (le_refl _)) htransmits
  intro U s hs h hown
  have hfreed : ∀ {packet : PacketId} {out : TftpResult × TftpConnection}, Idles (do freeNetworkPacket packet; return out) :=
    Idles.bind (freeNetworkPacket_idles _) fun _ => .pure _
  unfold tryReadData
  rw [wp_bind]
  have htake : wp (udpReceiveZeroCopy connection.clientPort) _ (Stopped False U limit 0) s := udpReceiveZeroCopy_sound hs
  have haddress : Transmits addresses 0 (udpReceiveZeroCopy connection.clientPort) := udpReceiveZeroCopy_transmits _
  apply wp_partial (wp_and htake (wp_and (haddress s) ((udpReceiveZeroCopy_idles _).wired hP h)))
  rintro taken t ⟨⟨ht, _⟩, hsame, hafter⟩
  have hown' : addresses t.ourIp := hsame.address hown
  cases taken with
  | none => exact hafter
  | some p =>
    have hanswer : ∀ {send : Net Unit}, KeepsWire addresses P limit (p :: held) send →
        wp (do send; freeNetworkPacket p; return (TftpResult.nothing, connection)) (fun _ u => P u)
          (fun _ _ => True) t := by
      intro send hsend
      rw [wp_bind]
      apply wp_next (hsend U t ht hafter hown')
      rintro _ u ⟨_, hu, _⟩
      exact hfreed.wired hP hu
    rw [wp_bind, wp_getPacket]
    simp only [wp_ite]
    split
    · apply hanswer
      apply sendErrorTo_keepsWire hP
      decide
    · split
      · exact hanswer (ackCurrentBlock_keepsWire hP connection)
      · split
        · exact hfreed.wired hP hafter
        · exact hfreed.wired hP hafter

/-- The name of the file has to fit into the request, if one is sent. -/
theorem tftpRead_wired (hs : Sound False U limit held s) (h : P s) (hown : addresses s.ourIp)
    {connection : TftpConnection} (hfits : SendsRequest connection s → RequestFits connection) (size : Int) :
    wp (tftpRead connection size) (fun _ t => P t) (fun _ _ => True) s := by
  unfold tftpRead
  split
  · next hstate =>
    rw [wp_bind]
    have hread : ∀ connection, Idles (do return handleOack (← tryReadOack connection)) := fun connection =>
      Idles.bind (tryReadOack_idles connection) fun _ => .pure _
    have hrequest : wp (tftpReadRequestState connection) (fun _ t => P t) (fun _ _ => True) s := by
      apply wp_wired_then hP _ hread
      unfold tftpSendOnTimeout
      rw [wp_bind, wp_getTime, wp_ite]
      split
      · next htimeout =>
        apply wp_wired_then hP _ fun _ => nextTftpBackoff_idles connection
        have hsend : KeepsWire addresses P limit held (sendTftpRequest connection) :=
          sendTftpRequest_keepsWire hP (hfits ⟨hstate, htimeout⟩)
        apply wp_next (hsend U s hs h hown)
        intro _ t ht
        exact ht.2.1
      · exact h
    exact hrequest
  · have hstate : KeepsWire addresses P limit held (tftpReadReadState connection size) := by
      refine KeepsWire.bind (tftpSendOnTimeout_keepsWire hP (ackCurrentBlock_keepsWire hP connection)) fun c =>
        KeepsWire.bind (tryReadData_keepsWire hP c size) fun result => KeepsWire.ite ?_ (.pure _)
      exact KeepsWire.ite (KeepsWire.bind (ackCurrentBlock_keepsWire hP _) fun _ => .pure _) (.pure _)
    apply wp_next (hstate U s hs h hown)
    intro _ t ht
    exact ht.2.1
  · exact h
  · exact h

/-- Every operation, from an intact state and from an address in `addresses`. A frame that the application has built
itself is excluded, and so is one that leaves no room for its headers; what a received ARP frame says is true. -/
theorem exec_wired {op : Op} (hs : Intact False U s) (h : P s) (hown : addresses s.ourIp)
    (hroom : LeavesRoom s op) (hframed : ∀ bytes ip, op ≠ .sendToIp bytes ip) (htrue : op = .receive → HearsTruth owner s) :
    wp op.exec (fun _ t => P t) (fun _ _ => True) s := by
  obtain ⟨limit, held, hs⟩ := hs
  have hassign : ∀ {t : Stack}, t.packets = s.packets → t.arp = s.arp → t.trace = s.trace → P t :=
    fun hpackets harp htrace => hP.idle h (Idle.assign hpackets harp htrace)
  cases op with
  | receiveDone slot status bytes => exact gmacReceiveDone_wired hP hs h slot status bytes
  | transmitDone slot => exact hassign rfl rfl rfl
  | transmitStatus tsr => exact hassign rfl rfl rfl
  | tick now => exact hassign rfl rfl rfl
  | receive =>
    simp only [Op.exec, wp_bind, wp_pure]
    exact receivePacket_wired hP hs h hown (htrue rfl)
  | arpTask => exact arpTask_wired hP hs h hown
  | sendToIp bytes ip => exact absurd rfl (hframed bytes ip)
  | udpListen port maxPacketCount => exact (udpListen_idles port maxPacketCount).wired hP h
  | udpSend data size sourcePort destPort ip => exact udpSend_wired hP hs h hown data hroom sourcePort destPort ip
  | udpReceive size port =>
    have hidles : Idles (Op.udpReceive size port).exec := Idles.bind (udpReceive_idles size port) fun _ => .pure _
    exact hidles.wired hP h
  | dhcpStart => exact dhcpStart_idles.wired hP h
  | dhcpTask => exact dhcpTask_wired hP hs h hown
  | dhcpRelease => exact dhcpSendPacket_wired hP hs h hown .release
  | downloadFile filename serverIp =>
    have hidles : Idles (downloadFile filename serverIp) :=
      Idles.bind .get fun _ => Idles.bind (Idles.bind (udpListen_idles _ _) fun _ => .pure _) fun _ =>
        .assign fun _ => ⟨rfl, rfl, rfl⟩
    exact hidles.wired hP h
  | readFile size =>
    simp only [Op.exec, readFile, wp_bind, wp_get, wp_modify]
    apply wp_next (tftpRead_wired hP hs h hown hroom size)
    intro _ t ht
    exact hP.idle ht (Idle.assign rfl rfl rfl)
  | abortDownload errorMessage =>
    have hsend : KeepsWire addresses P limit held (tftpAbortDownload s.application.connection errorMessage) :=
      sendErrorTo_keepsWire hP _ _ _ hroom
    simp only [Op.exec, wp_bind, wp_get]
    apply wp_next (hsend U s hs h hown)
    intro _ t ht
    exact ht.2.1
  | setOurMac mac => exact hassign rfl rfl rfl
  | setOurIp ip => exact hassign rfl rfl rfl
  | setOurNetmask netmask => exact hassign rfl rfl rfl

variable {application : Application} {time : Time} {entropy : Nat → UInt32}

/-- What a run keeps, next to the address. -/
theorem reaches_wired {ok : Stack → Op → Prop} (hbooted : P (booted application time entropy))
    (h : Reaches Op.exec ok (booted application time entropy) s)
    (hok : ∀ s op, ok s op → Conforming addresses owner s op) (hzero : addresses 0) :
    P s ∧ addresses s.ourIp := by
  have hstart : addresses (booted application time entropy).ourIp := by
    have hfresh : Fresh application time entropy (booted application time entropy) := booted_fresh
    rw [hfresh.ours.1]
    exact hzero
  apply h.invariant (I := fun t => P t ∧ addresses t.ourIp) ⟨hbooted, hstart⟩
  rintro s op hreached ⟨hafter, hown⟩ met
  have hconforming := hok s op met
  have hs : Intact False (fun _ _ _ _ => True) s := reaches_intact False hreached False.elim
  have hrun := exec_wired hP hs hafter hown hconforming.room hconforming.framed hconforming.truth
  cases hexec : op.exec s with
  | ok _ t =>
    have ht := wp_ok hrun hexec
    rw [wp, hexec]
    exact ⟨ht, hconforming.address t hexec⟩
  | error _ _ =>
    rw [wp, hexec]
    trivial

end Calls

end MiniIp.Invariant
