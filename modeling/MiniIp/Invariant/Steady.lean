import MiniIp.Invariant.ClientFrame
import MiniIp.Invariant.ClientParts
import MiniIp.Invariant.ListenerQueue
import MiniIp.Invariant.SoundRun

/-!
# Calls that return

A call that sends stops on an empty pool, on an error of the transmitter, or on a missing list node. The invariant of
the lists excludes the last. So `dhcp_task` returns where one packet is in the pool and the transmitter reports
nothing. The client of TFTP may ask ARP for its server, and then leaves a packet in the queue of the entry: `tftp_read`
returns where the pool holds three.
-/

set_option autoImplicit false

namespace MiniIp.Invariant

open MiniIp.Source MiniIp.Library.Runs MiniIp.Library.Wp

/-- The pool holds `n` packets and the transmitter reports no error. A datagram costs its sender a packet of the pool
where ARP is asked for the target. It costs none where every address is a broadcast address. -/
structure Steady (cost n : ℕ) (s : Stack) : Prop where
  pool : n ≤ s.freeNetworkPackets.length
  tsr : transmitErrors s.gmac.tsr = false
  netmask : cost = 0 → s.ourNetmask = 0xFFFFFFFF

/-- The computation leaves `m` packets in the pool if there were `n`, and stops on a missing list node only. -/
abbrev Steadily {α : Type} (cost n m : ℕ) (x : Net α) : Prop :=
  ∀ s, Steady cost n s → wp x (fun _ t => Steady cost m t) (fun halt _ => halt = .nullPointer) s

variable {W : Prop} {U : QueueContent} {held : List PacketId} {α β : Type} {cost n m k limit : ℕ} {s t : Stack}
  {p : PacketId} {c : UdpConnectionId} {connection : TftpConnection}

theorem Steady.kept (h : Steady cost n s) (hfree : t.freeNetworkPackets = s.freeNetworkPackets)
    (htsr : t.gmac.tsr = s.gmac.tsr) (hnetmask : t.ourNetmask = s.ourNetmask) : Steady cost n t := by
  constructor
  · rw [hfree]
    exact h.pool
  · rw [htsr]
    exact h.tsr
  · rw [hnetmask]
    exact h.netmask

theorem Steady.fewer (h : Steady cost n s) (hmn : m ≤ n) : Steady cost m s := ⟨hmn.trans h.pool, h.tsr, h.netmask⟩

namespace Steadily

theorem bind {x : Net α} {f : α → Net β} (hx : Steadily cost n m x) (hf : ∀ a, Steadily cost m k (f a)) :
    Steadily cost n k (x >>= f) := by
  intro s hs
  rw [wp_bind]
  apply wp_next (hx s hs)
  intro a t ht
  exact hf a t ht

theorem pure (a : α) : Steadily cost n n (pure a : Net α) := fun _ hs => hs

theorem get : Steadily cost n n (get : Net Stack) := fun _ hs => hs

theorem missing : Steadily cost n m (throw .nullPointer : Net α) := fun _ _ => rfl

theorem ite {c : Prop} [Decidable c] {x y : Net α} (hx : Steadily cost n m x) (hy : Steadily cost n m y) :
    Steadily cost n m (if c then x else y) := by
  split
  · exact hx
  · exact hy

theorem fewer {x : Net α} (hx : Steadily cost n m x) (hkm : k ≤ m) : Steadily cost n k x := by
  intro s hs
  apply wp_next (hx s hs)
  intro _ t ht
  exact ht.fewer hkm

theorem modify {f : Stack → Stack} (h : ∀ s, (f s).freeNetworkPackets = s.freeNetworkPackets ∧
    (f s).gmac.tsr = s.gmac.tsr ∧ (f s).ourNetmask = s.ourNetmask) : Steadily cost n n (modify f : Net Unit) := by
  intro s hs
  obtain ⟨hfree, htsr, hnetmask⟩ := h s
  exact hs.kept hfree htsr hnetmask

end Steadily

theorem emit_steadily (event : Event) : Steadily cost n n (emit event) := .modify fun _ => ⟨rfl, rfl, rfl⟩

theorem getPacket_steadily (p : PacketId) : Steadily cost n n (getPacket p) := .bind .get fun _ => .pure _

theorem modifyPacket_steadily (p : PacketId) (f : NetworkPacket → NetworkPacket) :
    Steadily cost n n (modifyPacket p f) := .modify fun _ => ⟨rfl, rfl, rfl⟩

theorem modifyEntry_steadily (entry : ArpEntryId) (f : ArpEntry → ArpEntry) : Steadily cost n n (modifyEntry entry f) :=
  .modify fun _ => ⟨rfl, rfl, rfl⟩

theorem recordWindow_steadily (site : Site) (p : PacketId) (headerSize : Int) :
    Steadily cost n n (recordWindow site p headerSize) := .bind (getPacket_steadily _) fun _ => emit_steadily _

theorem freeNetworkPacket_steadily (p : PacketId) : Steadily cost n (n + 1) (freeNetworkPacket p) := by
  intro s hs
  rw [wp_freeNetworkPacket]
  exact ⟨Nat.succ_le_succ hs.pool, hs.tsr, hs.netmask⟩

theorem allocateNetworkPacket_steadily : Steadily cost (n + 1) n allocateNetworkPacket := by
  intro s hs
  have hpool := hs.pool
  unfold allocateNetworkPacket
  rw [wp_bind, wp_get]
  cases hfree : s.freeNetworkPackets with
  | nil =>
    rw [hfree, List.length_nil] at hpool
    omega
  | cons q rest =>
    rw [hfree, List.length_cons] at hpool
    exact ⟨Nat.le_of_succ_le_succ hpool, hs.tsr, hs.netmask⟩

/-- Every packet that is sent comes back, or another one for it. -/
theorem gmacSend_steadily (p : PacketId) : Steadily cost n (n + 1) (gmacSend p) := by
  intro s hs
  have herrors := hs.tsr
  have hpool := hs.pool
  unfold gmacSend
  simp only [wp_bind, wp_recordWindow, wp_getPacket, wp_emit, wp_get, wp_ite, Stack.observe_gmac, herrors,
    Bool.false_eq_true, if_false, wp_freeNetworkPacket]
  split
  · exact ⟨Nat.succ_le_succ hpool, herrors, hs.netmask⟩
  · split
    · exact rfl
    · simp only [wp_bind, wp_freeNetworkPacket, wp_modify, wp_getPacket]
      exact ⟨Nat.succ_le_succ hpool, herrors, hs.netmask⟩

theorem macSend_steadily (p : PacketId) (mac : Mac) (etherType : UInt16) :
    Steadily cost n (n + 1) (macSend p mac etherType) :=
  .bind (modifyPacket_steadily _ _) fun _ => .bind (recordWindow_steadily _ _ _) fun _ => .bind .get fun _ =>
    .bind (modifyPacket_steadily _ _) fun _ => .bind (emit_steadily _) fun _ => gmacSend_steadily p

theorem freeEntryPackets_steadily (entry : ArpEntryId) (packets : List PacketId) :
    Steadily cost n n (freeEntryPackets entry packets) := by
  induction packets with
  | nil => exact .pure _
  | cons packet rest ih =>
    exact .bind (modifyEntry_steadily _ _) fun _ => .bind ((freeNetworkPacket_steadily _).fewer (Nat.le_succ n))
      fun _ => .bind (modifyEntry_steadily _ _) fun _ => ih

/-- Evicting an entry gives its packets back. -/
theorem allocateEntry_steadily : Steadily cost n n allocateEntry := by
  have htake : ∀ entry, Steadily cost n n (takeEntry entry) := fun entry =>
    .bind (modifyEntry_steadily _ _) fun _ => .bind (.modify fun _ => ⟨rfl, rfl, rfl⟩) fun _ => .pure _
  refine .bind .get fun s => ?_
  split
  · exact .bind (.modify fun _ => ⟨rfl, rfl, rfl⟩) fun _ => htake _
  · refine .bind .get fun t => ?_
    split
    · exact .missing
    · have hfree : ∀ entry, Steadily cost n n (freeEntry entry) := fun entry =>
        .bind .get fun _ => .bind (freeEntryPackets_steadily _ _) fun _ => .modify fun _ => ⟨rfl, rfl, rfl⟩
      exact .bind (emit_steadily _) fun _ => .bind (hfree _) fun _ => htake _

theorem addToArpEntryQueue_steadily (p : PacketId) (entry : ArpEntryId) :
    Steadily cost n n (addToArpEntryQueue p entry) := by
  have happend : Steadily cost n n (appendToArpEntryQueue p entry) :=
    .bind (modifyEntry_steadily _ _) fun _ => recordWindow_steadily _ _ _
  refine .bind .get fun s => .ite (.bind .get fun t => ?_) happend
  split
  · exact .missing
  · exact .bind (modifyEntry_steadily _ _) fun _ => .bind ((freeNetworkPacket_steadily _).fewer (Nat.le_succ n))
      fun _ => .bind (modifyEntry_steadily _ _) fun _ => happend

theorem sendArpPacket_steadily (mac : Mac) (ip : Ip) (type : ArpType) :
    Steadily cost (n + 1) (n + 1) (sendArpPacket mac ip type) :=
  .bind allocateNetworkPacket_steadily fun _ => .bind (recordWindow_steadily _ _ _) fun _ => .bind .get fun _ =>
    .bind (modifyPacket_steadily _ _) fun _ => .ite (macSend_steadily _ _ _) (macSend_steadily _ _ _)

/-- The packet stays in the queue of the entry, and a request is sent. -/
theorem arpSend_steadily (p : PacketId) (ip : Ip) : Steadily cost (n + 1) (n + 1) (arpSend p ip) := by
  refine .bind (emit_steadily _) fun _ => .bind (.bind .get fun _ => .pure _) fun found => ?_
  cases found with
  | some entry =>
    exact .bind .get fun _ => .ite ((macSend_steadily _ _ _).fewer (by omega)) (addToArpEntryQueue_steadily _ _)
  | none =>
    exact .bind allocateEntry_steadily fun _ => .bind (.bind .get fun _ => .pure _) fun _ =>
      .bind (modifyEntry_steadily _ _) fun _ => .bind (addToArpEntryQueue_steadily _ _) fun _ =>
      sendArpPacket_steadily _ _ _

theorem shouldBroadcast_host (ip : Ip) : shouldBroadcast 0xFFFFFFFF ip = true := by
  have hzero : ~~~(0xFFFFFFFF : Ip) = 0 := by decide
  rw [shouldBroadcast, hzero, UInt32.zero_and]
  rfl

/-- The broadcast address costs nothing. -/
theorem ipSend_broadcast (p : PacketId) (protocol : UInt8) : Steadily cost n (n + 1) (ipSend p 0xFFFFFFFF protocol) := by
  intro s hs
  unfold ipSend
  simp only [wp_bind, wp_modifyPacket, wp_recordWindow, wp_get, shouldBroadcast_all, if_true]
  exact macSend_steadily p broadcastMac etherTypeIpv4 _ (hs.kept rfl rfl rfl)

/-- A broadcast leaves as it is, and any other packet may wait for its address. -/
theorem ipSend_steadily (p : PacketId) (ip : Ip) (protocol : UInt8) :
    Steadily cost (n + cost) (n + 1) (ipSend p ip protocol) := by
  intro s hs
  unfold ipSend
  simp only [wp_bind, wp_modifyPacket, wp_recordWindow, wp_get, wp_ite]
  split
  · exact (macSend_steadily p broadcastMac etherTypeIpv4).fewer (by omega) _ (hs.kept rfl rfl rfl)
  · next hbroadcast =>
    cases cost with
    | zero =>
      apply absurd _ hbroadcast
      simp only [Stack.observe_ourNetmask, Stack.write_ourNetmask, hs.netmask rfl, shouldBroadcast_host]
    | succ cost =>
      have hroom := hs.fewer (m := n + 1) (by omega)
      exact arpSend_steadily p ip _ (hroom.kept rfl rfl rfl)

theorem udpSendZeroCopy_steadily {ip : Ip} (hsend : ∀ protocol, Steadily cost n m (ipSend p ip protocol))
    (sourcePort destPort : Port) : Steadily cost n m (udpSendZeroCopy p sourcePort destPort ip) := by
  intro s hs
  unfold udpSendZeroCopy
  simp only [wp_bind, wp_getPacket, wp_emit, wp_modifyPacket, wp_recordWindow, wp_get]
  exact hsend ipProtocolUdp _ (hs.kept rfl rfl rfl)

theorem sendTftpPacket_steadily (connection : TftpConnection) (destPort : Port) (bytes : List UInt8) :
    Steadily cost (n + cost + 1) (n + 1) (sendTftpPacket connection destPort bytes) :=
  .bind allocateNetworkPacket_steadily fun _ => .bind (modifyPacket_steadily _ _) fun _ =>
    udpSendZeroCopy_steadily (fun _ => ipSend_steadily _ _ _) _ _

theorem dhcpSendPacket_steadily (type : DhcpPacketType) : Steadily cost (n + 1) (n + 1) (dhcpSendPacket type) :=
  .bind allocateNetworkPacket_steadily fun _ => .bind .get fun _ => .bind (modifyPacket_steadily _ _) fun _ =>
    .bind (emit_steadily _) fun _ => udpSendZeroCopy_steadily (fun _ => ipSend_broadcast _ _) _ _

theorem udpReceiveZeroCopy_steadily (port : Port) : Steadily cost n n (udpReceiveZeroCopy port) := by
  refine .bind .get fun s => ?_
  split
  · exact .pure _
  · refine .bind .get fun t => .ite (.pure _) ?_
    split
    · exact .missing
    · exact .bind (.modify fun _ => ⟨rfl, rfl, rfl⟩) fun _ => .bind (getPacket_steadily _) fun _ =>
        .bind (emit_steadily _) fun _ => .pure _

theorem random_steadily : Steadily cost n n random :=
  .bind .get fun _ => .bind (.modify fun _ => ⟨rfl, rfl, rfl⟩) fun _ => .pure _

theorem steadily_sequential : Sequential fun _ x => Steadily cost n n x := ⟨.pure, .get, .bind⟩

/-- The netmask is the client's to set, so that a datagram may cost something. -/
theorem client_steadily : ClientParts (fun _ => True) fun _ x => Steadily 1 (n + 1) (n + 1) x where
  toSequential := steadily_sequential
  read := by
    apply dhcpRead_of steadily_sequential
    · exact udpReceiveZeroCopy_steadily _
    · exact getPacket_steadily
    · exact fun _ => .modify fun _ => ⟨rfl, rfl, rfl⟩
    · exact fun packet => (freeNetworkPacket_steadily packet).fewer (Nat.le_succ _)
  assign _ := .modify fun _ => ⟨rfl, rfl, rfl⟩
  offer := emit_steadily _
  ack := emit_steadily _
  enter _ _ := emit_steadily _
  send := dhcpSendPacket_steadily
  draw := random_steadily
  address _ := .modify fun _ => ⟨rfl, rfl, rfl⟩
  netmask _ _ hs := ⟨hs.pool, hs.tsr, fun hzero => absurd hzero one_ne_zero⟩

/-- `dhcp_task` returns where a packet is left for it and the transmitter reports no error. -/
theorem dhcpTask_returns (h : Sound W U limit held s) (hpool : s.freeNetworkPackets ≠ [])
    (hclear : transmitErrors s.gmac.tsr = false) : wp dhcpTask (fun _ _ => True) (fun _ _ => False) s := by
  have hsteady : Steady 1 (0 + 1) s :=
    ⟨List.length_pos_iff.mpr hpool, hclear, fun hzero => absurd hzero one_ne_zero⟩
  have htask : Steadily 1 (0 + 1) (0 + 1) dhcpTask := dhcpTask_of client_steadily fun _ => trivial
  have hkeeps : Keeps W limit held.length held dhcpTask := dhcpTask_keeps (le_refl _)
  apply wp_mono (wp_and (htask s hsteady) (hkeeps U s h))
  · intro _ _ _
    trivial
  · intro halt t hstop
    exact hstop.2.node hstop.1

/-- A datagram cannot be sent: the pool is empty, or the transmitter reports an error. -/
def CannotSend (s : Stack) : Prop := s.freeNetworkPackets = [] ∨ transmitErrors s.gmac.tsr = true

/-- `dhcp_task` stops only where a datagram cannot be sent. -/
theorem dhcpTask_stops (h : Sound W U limit held s) :
    wp dhcpTask (fun _ _ => True) (fun _ _ => CannotSend s) s := by
  by_cases hpool : s.freeNetworkPackets = []
  · exact wp_mono (dhcpTask_keeps (le_refl _) U s h) (fun _ _ _ => trivial) fun _ _ _ => .inl hpool
  · cases hclear : transmitErrors s.gmac.tsr with
    | true => exact wp_mono (dhcpTask_keeps (le_refl _) U s h) (fun _ _ _ => trivial) fun _ _ _ => .inr hclear
    | false => exact wp_mono (dhcpTask_returns h hpool hclear) (fun _ _ ht => ht) fun _ _ hstop => hstop.elim

/-- What holds where `dhcp_task` returns is shown of a call that stops only where a datagram cannot be sent. -/
theorem dhcpTask_stopping {application : Application} {time : Time} {entropy : ℕ → UInt32} {Q : Unit → Stack → Prop}
    (h : Reaches Op.exec (fun _ _ => True) (booted application time entropy) s)
    (hreturns : wp dhcpTask Q (fun _ _ => True) s) : wp dhcpTask Q (fun _ _ => CannotSend s) s := by
  obtain ⟨limit, held, hs⟩ := reaches_intact False h fun hfalse => hfalse.elim
  apply wp_mono (wp_and hreturns (dhcpTask_stops hs))
  · exact fun _ _ hboth => hboth.1
  · exact fun _ _ hstop => hstop.2

theorem tftpSendOnTimeout_steadily (connection : TftpConnection) {send : Net Unit} (hsend : Steadily cost n m send)
    (hmn : m ≤ n) : Steadily cost n m (tftpSendOnTimeout connection send) := by
  have hnext : Steadily cost m m (nextTftpBackoff connection) :=
    .bind random_steadily fun _ => .bind (.bind .get fun _ => .pure _) fun _ => .pure _
  exact .bind (.bind .get fun _ => .pure _) fun _ => .ite (.bind hsend fun _ => hnext)
    ((Steadily.pure _).fewer hmn)

/-- A datagram that is too short is kept. -/
theorem tryReadOack_steadily (connection : TftpConnection) : Steadily cost n n (tryReadOack connection) := by
  refine .bind (udpReceiveZeroCopy_steadily _) fun taken => ?_
  cases taken with
  | none => exact .pure _
  | some packet =>
    refine .bind (getPacket_steadily _) fun p => .ite (.pure _)
      (.bind ((freeNetworkPacket_steadily _).fewer (Nat.le_succ n)) fun _ => ?_)
    split
    · exact .pure _
    · exact .pure _

/-- The packet that a datagram gives back to the pool when it is taken from the queue. -/
def gain (s : Stack) (port : Port) : ℕ := if (queueHead s port).isSome then 1 else 0

/-- Where `try_read_data` sends nothing, one datagram more can be sent. -/
theorem tryReadData_steady (h : Steady cost (n + cost + 1) s) (hudp : UdpTable limit s.udp) (size : Int) :
    wp (tryReadData connection size)
      (fun out t => Steady cost (n + 1 + gain s connection.clientPort) t ∧
        (out.1.count ≠ 0 → Steady cost (n + 1 + cost + 1) t))
      (fun halt _ => halt = .nullPointer) s := by
  unfold tryReadData gain
  rw [wp_bind, wp_udpReceiveZeroCopy hudp]
  cases hhead : queueHead s connection.clientPort with
  | none => exact ⟨h.fewer (by simp), fun hcount => absurd rfl hcount⟩
  | some found =>
    obtain ⟨c, p⟩ := found
    have htaken : Steady cost (n + cost + 1) (dequeued s connection.clientPort c p) := h.kept rfl rfl rfl
    have hfreed : Steady cost (n + cost + 1 + 1) _ := freeNetworkPacket_steadily p _ htaken
    simp only [wp_bind, wp_getPacket, wp_ite]
    split
    · apply wp_next (sendTftpPacket_steadily _ _ _ _ htaken)
      intro _ t ht
      exact ⟨freeNetworkPacket_steadily p t ht, fun hcount => absurd rfl hcount⟩
    · split
      · apply wp_next (sendTftpPacket_steadily _ _ _ _ htaken)
        intro _ t ht
        exact ⟨freeNetworkPacket_steadily p t ht, fun hcount => absurd rfl hcount⟩
      · split
        · exact ⟨hfreed.fewer (by simp), fun _ => hfreed.fewer (by omega)⟩
        · exact ⟨hfreed.fewer (by simp), fun hcount => absurd rfl hcount⟩

/-- The poll sends when its time has come, and in answer to the datagram that it finds. -/
theorem tftpReadReadState_steady (h : Steady cost (n + cost + cost + 1) s) (hudp : UdpTable limit s.udp) (size : Int) :
    wp (tftpReadReadState connection size) (fun _ t => Steady cost (n + 1 + gain s connection.clientPort) t)
      (fun halt _ => halt = .nullPointer) s := by
  have hpolls : wp (tftpSendOnTimeout connection (ackCurrentBlock connection))
      (fun polled t => Steady cost (n + cost + 1) t ∧ polled.clientPort = connection.clientPort ∧ t.udp = s.udp)
      (fun halt _ => halt = .nullPointer) s := by
    have hack : Steadily cost (n + cost + cost + 1) (n + cost + 1) (ackCurrentBlock connection) :=
      sendTftpPacket_steadily connection _ _
    have hsteady := tftpSendOnTimeout_steadily connection hack (by omega) s h
    have hsame : wp (tftpSendOnTimeout connection (ackCurrentBlock connection))
        (fun polled t => polled.clientPort = connection.clientPort ∧ t.udp = s.udp) (fun _ _ => True) s := by
      unfold tftpSendOnTimeout nextTftpBackoff
      simp only [wp_bind, wp_getTime, wp_ite, wp_random, wp_pure]
      split
      · apply wp_partial (sendTftpPacket_sends connection _ _ s)
        intro _ t ht
        exact ⟨trivial, ht.udp⟩
      · exact ⟨trivial, trivial⟩
    exact wp_mono (wp_and hsteady hsame) (fun _ _ hpost => hpost) fun _ _ hstop => hstop.1
  unfold tftpReadReadState
  rw [wp_bind]
  apply wp_next hpolls
  rintro polled t ⟨ht, hport, hkept⟩
  have hgain : gain t polled.clientPort = gain s connection.clientPort := by
    rw [gain, gain, queueHead, queueHead, hport, hkept]
  rw [← hkept] at hudp
  rw [wp_bind]
  apply wp_next (tryReadData_steady ht hudp size)
  rintro out u ⟨hu, hdata⟩
  rw [hgain] at hu
  simp only [wp_ite, wp_pure]
  split
  · next hcount =>
    split
    · rw [wp_bind]
      have hmore : Steady cost (n + 1 + cost + 1) u := hdata hcount
      apply wp_next (sendTftpPacket_steadily _ _ _ u hmore)
      intro _ v hv
      refine hv.fewer ?_
      unfold gain
      split
      · exact le_refl _
      · omega
    · exact hu
  · exact hu

/-- `tftp_read` sends twice at most. -/
theorem tftpRead_steady (h : Steady cost (n + cost + cost + 1) s) (hudp : UdpTable limit s.udp) (size : Int) :
    wp (tftpRead connection size)
      (fun _ t => Steady cost (n + 1) t ∧
        (connection.state = .read → Steady cost (n + 1 + gain s connection.clientPort) t))
      (fun halt _ => halt = .nullPointer) s := by
  unfold tftpRead
  split
  · next hstate =>
    have hrequest : Steadily cost (n + cost + 1) (n + 1) (tftpReadRequestState connection) :=
      .bind (tftpSendOnTimeout_steadily connection (sendTftpPacket_steadily _ _ _) (by omega)) fun _ =>
        .bind (tryReadOack_steadily _) fun _ => .pure _
    rw [wp_bind]
    apply wp_next (hrequest s (h.fewer (by omega)))
    intro _ t ht
    exact ⟨ht, fun hread => absurd (hstate.symm.trans hread) (by decide)⟩
  · apply wp_next (tftpReadReadState_steady h hudp size)
    intro _ t ht
    exact ⟨ht.fewer (by omega), fun _ => ht⟩
  · next hstate => exact ⟨h.fewer (by omega), fun hread => absurd (hstate.symm.trans hread) (by decide)⟩
  · next hstate => exact ⟨h.fewer (by omega), fun hread => absurd (hstate.symm.trans hread) (by decide)⟩

/-- No list node is missing. -/
theorem tftpRead_afforded (h : Sound False U limit held s) (hsteady : Steady cost (n + cost + cost + 1) s) (size : Int) :
    wp (tftpRead connection size)
      (fun _ t => Steady cost (n + 1) t ∧
        (connection.state = .read → Steady cost (n + 1 + gain s connection.clientPort) t))
      (fun _ _ => False) s := by
  apply wp_mono (wp_and (tftpRead_steady hsteady h.udp size) (tftpRead_sound h (le_refl _) False.elim))
  · intro _ t ht
    exact ht.1
  · intro halt t hstop
    exact hstop.2.node hstop.1

/-- `tftp_read` returns where the pool holds three packets and the transmitter reports no error. -/
theorem tftpRead_returns (h : Sound False U limit held s) (hpool : 3 ≤ s.freeNetworkPackets.length)
    (hclear : transmitErrors s.gmac.tsr = false) (size : Int) :
    wp (tftpRead connection size) (fun _ _ => True) (fun _ _ => False) s := by
  have hsteady : Steady 1 (0 + 1 + 1 + 1) s := ⟨hpool, hclear, fun hzero => absurd hzero one_ne_zero⟩
  exact wp_next (tftpRead_afforded h hsteady size) fun _ _ _ => trivial

/-- Where every address is a broadcast address, a poll that takes a datagram leaves a packet more in the pool. -/
theorem readFile_steady (h : Steady 0 (n + 1) s) (hs : Sound False U limit held s)
    (hread : s.application.connection.state = .read) (size : Int)
    (hhead : (queueHead s s.application.connection.clientPort).isSome) :
    wp (readFile size) (fun _ t => Steady 0 (n + 2) t ∧ receiveRing t = receiveRing s ∧ t.ourIp = s.ourIp)
      (fun _ _ => False) s := by
  have hspares : Spares True (tftpRead s.application.connection size) := tftpRead_spares _ size
  unfold readFile
  rw [wp_bind, wp_get, wp_bind]
  apply wp_mono (wp_and (tftpRead_afforded hs h size) (hspares s))
  · rintro out t ⟨⟨_, ht⟩, hframe⟩
    have hgained := ht hread
    rw [gain, if_pos hhead] at hgained
    exact ⟨hgained.kept rfl rfl rfl, hframe.ring trivial, hframe.ourIp⟩
  · intro halt t hstop
    exact hstop.1

/-- No frame waits in the receive ring. -/
def RingIdle (s : Stack) : Prop := ∀ i, (s.gmac.rxDescriptors i).owner = .gmac

/-- What the hardware makes of a buffer. -/
def storedFrame (status : RxStatus) (bytes : Memory) (old : NetworkPacket) : NetworkPacket := { old with
  data := fun offset => if 0 ≤ offset ∧ offset < 1024 then bytes offset else old.data offset
  index := 0
  length := status.length.val
  broadcast := status.broadcastDetected }

theorem wp_allocateNetworkPacket_cons {Q : PacketId → Stack → Prop} {E : Halt → Stack → Prop} (p : PacketId)
    (rest : List PacketId) (h : s.freeNetworkPackets = p :: rest) :
    wp allocateNetworkPacket Q E s ↔ Q p ((s.setPool rest).write p (emptied (s.packets p))) := by
  unfold wp
  rw [allocateNetworkPacket_cons h]

/-- A frame that is stored in the next slot is the next one that is received. -/
theorem gmacReceive_stored (h : Steady cost (n + 1) s) (hring : RingIdle s) {status : RxStatus} (hstart : status.startOfFrame = true)
    (hend : status.endOfFrame = true) (bytes : Memory) (hslot : s.gmac.rxPackets s.gmac.rxIndex = some p)
    (hfree : p ∉ s.freeNetworkPackets) :
    wp (gmacReceiveDone s.gmac.rxIndex status bytes >>= fun _ => gmacReceive)
      (fun received t => received = some p ∧ t.packets p = storedFrame status bytes (s.packets p) ∧
        (Steady cost n t ∧ RingIdle t) ∧ t.udp = s.udp ∧ t.application = s.application ∧ t.ourIp = s.ourIp)
      (fun _ _ => False) s := by
  have hpool := h.pool
  have hidle := hring s.gmac.rxIndex
  have hmarks : ¬ (true = false ∨ true = false) := by decide
  have howner : ¬ Owner.cpu = Owner.gmac := by decide
  cases hpackets : s.freeNetworkPackets with
  | nil =>
    rw [hpackets, List.length_nil] at hpool
    omega
  | cons next rest =>
    rw [hpackets] at hpool hfree
    have hne : p ≠ next := fun heq => hfree (heq ▸ List.mem_cons_self)
    unfold gmacReceiveDone gmacReceive
    simp only [wp_bind, wp_get, wp_ite, hidle, if_true, hslot, wp_modifyPacket, wp_modify, Stack.write_gmac,
      Stack.setRxDescriptor_gmac_rxIndex, Stack.setRxDescriptor_gmac_rxDescriptors, Function.update_self, howner,
      if_false, hstart, hend, hmarks, Stack.setRxDescriptor_gmac_rxPackets]
    refine (wp_allocateNetworkPacket_cons next rest ?_).mpr
      ⟨rfl, ?_, ⟨⟨Nat.le_of_succ_le_succ hpool, h.tsr, h.netmask⟩, ?_⟩, rfl, rfl, rfl⟩
    · exact hpackets
    · simp [hne, storedFrame]
    · intro i
      by_cases heq : i = s.gmac.rxIndex
      · simp [heq]
      · simp [Function.update_of_ne heq, hring i]

theorem readBytes_of_getD {memory : Memory} {pointer : Int} {bytes : List UInt8}
    (h : ∀ i : ℕ, i < bytes.length → memory (pointer + i) = bytes.getD i 0) :
    readBytes memory pointer bytes.length = bytes := by
  induction bytes generalizing pointer with
  | nil => rfl
  | cons value rest ih =>
    have hfirst := h 0 (by simp)
    have hrest : readBytes memory (pointer + 1) rest.length = rest := by
      apply ih
      intro i hi
      have hnext := h (i + 1) (by simpa using hi)
      rw [List.getD_cons_succ] at hnext
      rw [← hnext]
      congr 1
      omega
    rw [List.length_cons, readBytes, hrest]
    congr 1
    simpa using hfirst

/-- The bytes of a frame that is delivered whole. -/
theorem storedFrame_payload {bytes : List UInt8} (hlong : bytes.length ≤ 1024) (old : NetworkPacket) :
    (storedFrame ⟨true, true, Fin.ofNat 1025 bytes.length, false⟩ (memoryOf bytes) old).payload = bytes := by
  have hlength : (Fin.ofNat 1025 bytes.length).val = bytes.length := Nat.mod_eq_of_lt (by omega)
  unfold NetworkPacket.payload storedFrame
  dsimp only
  rw [hlength, Int.toNat_natCast]
  apply readBytes_of_getD
  intro i hi
  rw [if_pos (by omega), memoryOf, if_pos (by omega)]
  congr 1
  omega

theorem DatagramFrame.length {sourcePort destPort : Port} {ourIp ip : Ip} {payload frame : List UInt8}
    (h : DatagramFrame sourcePort destPort ourIp ip payload frame) : frame.length = 42 + payload.length := by
  obtain ⟨macs, total, ipChecksum, length, udpChecksum, hmacs, _, rfl⟩ := h
  simp only [List.length_append, hmacs, be16Bytes_length, ipHeaderBytes_length, udpHeaderBytes_length]
  omega

/-- A datagram that arrives at an empty queue. -/
theorem datagram_arrives {sourcePort port : Port} {ourIp ip : Ip} {payload frame : List UInt8} {held : List PacketId}
    (h : Steady cost (n + 1) s) (hring : RingIdle s) (howned : Owned held s) (hslot : s.gmac.rxPackets s.gmac.rxIndex = some p)
    (hwaiting : Waiting s port c []) (hlimit : 0 < (s.udp.connections c).maxPacketCount)
    (hframe : DatagramFrame sourcePort port ourIp ip payload frame) (hpayload : 0 < payload.length)
    (hmost : payload.length ≤ 880) (htarget : s.ourIp = 0 ∨ s.ourIp = ip ∨ ip = 0xFFFFFFFF) :
    wp ((Op.deliver s.gmac.rxIndex (Fin.ofNat 1025 frame.length) frame).exec >>= fun _ => Op.receive.exec)
      (fun _ t => (Steady cost n t ∧ RingIdle t) ∧ Waiting t port c [p] ∧ t.application = s.application ∧ t.ourIp = s.ourIp ∧
        (t.udp.connections c).maxPacketCount = (s.udp.connections c).maxPacketCount ∧
        (t.packets p).payload = payload ∧ (t.packets p).sourcePort = sourcePort ∧ (t.packets p).sendersIp = ourIp)
      (fun _ _ => False) s := by
  have hlong := hframe.length
  have hfree := (howned.rx_not_queued hslot).2.2.1
  let status : RxStatus := ⟨true, true, Fin.ofNat 1025 frame.length, false⟩
  have hstart : status.startOfFrame = true := rfl
  have hreceives := gmacReceive_stored h hring hstart rfl (memoryOf frame) hslot hfree
  rw [wp_bind] at hreceives ⊢
  apply wp_next hreceives
  intro _ t ht
  simp only [Op.exec, receivePacket, wp_bind, wp_pure]
  apply wp_next ht
  rintro _ u ⟨rfl, hcontent, hu, hudp, happlication, hip⟩
  have hpadded : (u.packets p).payload = frame ++ [] := by
    rw [hcontent, List.append_nil]
    exact storedFrame_payload (by omega) _
  have hlength : (u.packets p).length = frame.length := by
    rw [hcontent]
    have hmod : (Fin.ofNat 1025 frame.length).val = frame.length := Nat.mod_eq_of_lt (by omega)
    exact congrArg Nat.cast hmod
  have hindex : (u.packets p).index = 0 := by rw [hcontent]; rfl
  have hfits : Fits 0 (u.packets p) := ⟨by omega, by omega, by omega⟩
  have hwaiting' : Waiting u port c [] := hwaiting.kept hudp
  have hroom : (u.udp.connections c).packetCount < (u.udp.connections c).maxPacketCount := by
    rw [hwaiting'.counted, hudp]
    exact hlimit
  rw [← hip] at htarget
  have hholds := holdsDatagram hframe hpadded
  simp only [wp_bind, wp_pure]
  apply wp_next (handleMac_waiting hwaiting' hroom hfits hholds hpayload htarget)
  rintro _ v ⟨hqueued, hdatagram, hkept⟩
  obtain ⟨hbytes, hport, hsender⟩ := hholds.datagram
  rw [← hdatagram] at hbytes hport hsender
  refine ⟨⟨hu.1.kept hkept.free (congrArg Gmac.tsr hkept.gmac) hkept.address.2, ?_⟩, hqueued, ?_, ?_, ?_, hbytes, hport, hsender⟩
  · intro i
    rw [hkept.gmac]
    exact hu.2 i
  · rw [hkept.application, happlication]
  · rw [hkept.address.1, hip]
  · rw [hkept.limit, hudp]

end MiniIp.Invariant
