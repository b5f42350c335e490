import MiniIp.Invariant.SoundRun

/-!
# The packet pool never runs dry

Between two calls at most 8 packets are in the transmit ring, 32 in the receive
ring, 2 in each of the 8 ARP queues and 32 in the UDP queues. A call that finds
the pool empty holds at most one more, and 8 + 32 + 16 + 32 + 1 is less than 96.

The count needs two conditions that the source does not ensure. `try_read_oack`
(tftp.c:162-197) returns without giving a datagram of less than two bytes back,
and the eviction of an ARP entry from a full table leaves the entry in both
lists, so that its queue is no longer limited.
-/

set_option autoImplicit false

namespace MiniIp.Guarantees.PoolNeverDry

open MiniIp.Source MiniIp.Invariant MiniIp.Library.Counting MiniIp.Library.Runs MiniIp.Library.Wp

/-- A listener is opened while a connection is free, and all listeners together ask for at most 32 packets. -/
def WithinLimits (s : Stack) : Op → Prop
  | .udpListen _ maxPacketCount => CanListen 32 maxPacketCount s
  | .dhcpStart | .downloadFile .. => CanListen 32 1 s
  | _ => True

/-- The limits are kept, and no datagram shorter than its opcode is waiting for `try_read_oack`. -/
def Lossless (s : Stack) (op : Op) : Prop := WithinLimits s op ∧ ¬ LosesPacket s op

variable {W : Prop} {U : QueueContent} {limit most : ℕ}
  {held : List PacketId} {s : Stack}

/-- All 96 packets, place by place. -/
theorem owned_total (h : Owned held s) :
    s.freeNetworkPackets.length + ∑ p, slots s.gmac.txPackets p + ∑ p, slots s.gmac.rxPackets p +
      ∑ e, (s.arp.entries e).packetQueue.length + ∑ c, (s.udp.connections c).packetQueue.length +
      held.length = 96 := by
  have hall : ∑ p, (occurrences s p + held.count p) = ∑ _p : PacketId, 1 :=
    Finset.sum_congr rfl fun p _ => h p
  simp only [occurrences, Finset.sum_add_distrib, sum_count] at hall
  rw [Finset.sum_comm (f := fun p e => (s.arp.entries e).packetQueue.count p),
    Finset.sum_comm (f := fun p c => (s.udp.connections c).packetQueue.count p)] at hall
  simp only [sum_count] at hall
  simpa using hall

/-- The UDP queues together are no longer than the listeners have asked for. -/
theorem udpTable_total (h : UdpTable limit s.udp) :
    ∑ c, (s.udp.connections c).packetQueue.length ≤ limit := by
  have hnodup := (List.nodup_append.mp h.nodup).2.1
  have hunused : ∀ c, c ∉ s.udp.usedConnections.toFinset →
      (s.udp.connections c).packetQueue.length = 0 := by
    intro c hc
    rw [List.mem_toFinset] at hc
    have hfree := (h.listed c).resolve_right hc
    rw [h.freeEmpty c hfree, List.length_nil]
  calc ∑ c, (s.udp.connections c).packetQueue.length
      = ∑ c ∈ s.udp.usedConnections.toFinset, (s.udp.connections c).packetQueue.length :=
        (Finset.sum_subset (Finset.subset_univ _) fun c _ => hunused c).symm
    _ ≤ ∑ c ∈ s.udp.usedConnections.toFinset, (s.udp.connections c).maxPacketCount.toNat :=
        Finset.sum_le_sum fun c hc => h.bounded c (List.mem_toFinset.mp hc)
    _ = limitSum s.udp := List.sum_toFinset _ hnodup
    _ ≤ limit := h.limited

theorem arpTable_total (h : ArpTable s.arp) : ∑ e, (s.arp.entries e).packetQueue.length ≤ 16 := by
  have hbound := Finset.sum_le_sum fun e (_ : e ∈ Finset.univ) => h.short e
  simpa using hbound

/-- With queues within their limits, a call that holds at most one packet finds one in the pool. -/
theorem pool_ne_nil (h : Base W U 32 held s) (hheld : held.length ≤ 1)
    (htable : ArpTable s.arp) : s.freeNetworkPackets ≠ [] := by
  intro hfree
  have htotal := owned_total h.owned
  have htx := sum_slots_le s.gmac.txPackets
  have hrx := sum_slots_le s.gmac.rxPackets
  have harp := arpTable_total htable
  have hudp := udpTable_total h.udp
  rw [hfree, List.length_nil] at htotal
  simp only [Fintype.card_fin] at htx hrx
  omega

variable {application : Application} {time : Time} {entropy : Nat → UInt32}

theorem permitted_of_withinLimits {op : Op} (h : WithinLimits s op) :
    Permitted False (fun _ _ _ _ => True) 32 s op := by
  cases op with
  | receive => exact ⟨brings_any s, fun w => w.elim⟩
  | udpSend data size sourcePort destPort ip => exact fun w => w.elim
  | readFile size => exact fun w => w.elim
  | abortDownload errorMessage => exact fun w => w.elim
  | udpListen port maxPacketCount => exact h
  | dhcpStart => exact h
  | downloadFile filename serverIp => exact h
  | _ => trivial

/-- In a run that loses no datagram, as long as no ARP entry is evicted, no call finds the pool
empty. -/
theorem pool_never_dry (h : Reaches Op.exec Lossless (booted application time entropy) s) {op : Op}
    (hop : WithinLimits s op) {halt : Halt} {t : Stack} (hstopped : op.exec s = .error halt t)
    (hkept : NoEviction t.trace) : halt ≠ .poolEmpty := by
  have hs : Sound False (fun _ _ _ _ => True) 32 [] s :=
    reaches_sound_lossless h fun s op hok => ⟨permitted_of_withinLimits hok.1, hok.2⟩
  have hrun := exec_sound 1 hs (by simp) (permitted_of_withinLimits hop)
  have hhalted := wp_error hrun hstopped
  intro hpool
  obtain ⟨hfree, held, hheld, hbase⟩ := hhalted.pool hpool
  exact pool_ne_nil hbase hheld (hbase.table hkept) hfree

instance (limit : ℕ) (maxPacketCount : Int) : DecidablePred (CanListen limit maxPacketCount) :=
  fun _ => inferInstanceAs (Decidable (_ ∧ _))

instance (s : Stack) : DecidablePred (WithinLimits s) := fun op => by
  unfold WithinLimits
  split <;> infer_instance

instance (connection : TftpConnection) : DecidablePred (ShortHead connection) := fun s =>
  decidable_of_iff (∃ found ∈ queueHead s connection.clientPort, (s.packets found.2).length < 2) (by simp [ShortHead])

instance (s : Stack) : DecidablePred (LosesPacket s) := fun op => by
  unfold LosesPacket
  split <;> infer_instance

instance (s : Stack) : DecidablePred (Lossless s) := fun _ => inferInstanceAs (Decidable (_ ∧ _))

/-- The client has been answered, and its next call stops without an eviction. -/
def acknowledgementFails (s : Stack) : Bool :=
  decide (s.application.connection.state = .read) && match (Op.readFile 512).exec s with
    | .error _ t => decide (NoEviction t.trace)
    | .ok _ _ => false

/-- A download has begun, and the call that acknowledges the server's answer stops for another reason: a transmit
error. -/
theorem pool_never_dry_transmit_error :
    ∃ s halt t, Reaches Op.exec Lossless (booted zeroApplication 0 fun _ => 0) s ∧
      s.application.connection.state = .read ∧ (Op.readFile 512).exec s = .error halt t ∧ halt ≠ .poolEmpty := by
  have hrun : runs Op.exec (fun s op => Lossless s op) acknowledgementFails
      [.setOurIp 0x0A000001, .setOurNetmask 0xFFFFFFFF, .downloadFile [102] 0x0A000002, .readFile 512,
        .deliverUdp 0 2000 tftpClientPort (be16Bytes tftpOpcodeOack ++ stringFollowedByZero blksizeString ++
          stringFollowedByZero blockSizeString), .receive, .readFile 512, .transmitStatus 0x10]
      (booted zeroApplication 0 fun _ => 0) = true := by
    decide +kernel
  obtain ⟨s, hreach, hcheck⟩ := reaches_of_runs Lossless .start (fun _ _ _ hguard => of_decide_eq_true hguard) hrun
  unfold acknowledgementFails at hcheck
  obtain ⟨hstate, hstops⟩ := Bool.and_eq_true_iff.mp hcheck
  split at hstops
  · next halt t hstopped =>
    have hkept : NoEviction t.trace := of_decide_eq_true hstops
    have hop : WithinLimits s (.readFile 512) := trivial
    exact ⟨s, halt, t, hreach, of_decide_eq_true hstate, hstopped, pool_never_dry hreach hop hstopped hkept⟩
  · cases hstops

/-- A frame with a UDP datagram of one byte for the TFTP client. -/
def oneByteDatagram : List UInt8 :=
  [0xFF, 0xFF, 0xFF, 0xFF, 0xFF, 0xFF, 2, 0, 0, 0, 0, 1, 0x08, 0x00,
    0x45, 0, 0, 29, 0, 0, 0, 0, 64, 17, 0, 0, 10, 0, 0, 2, 10, 0, 0, 1,
    0, 69, 0x5B, 0xA0, 0, 9, 0, 0, 7]

/-- The datagram arrives and the client polls, again and again. -/
def leakRounds : ℕ → Fin 32 → List Op
  | 0, _ => []
  | n + 1, slot =>
    .deliver slot 60 oneByteDatagram :: .receive :: .readFile 512 :: leakRounds n (slot + 1)

/-- After 56 short datagrams the pool is empty, and the next frame stops the device. -/
theorem pool_runs_dry :
    ∃ s t, Reaches Op.exec WithinLimits (booted zeroApplication 0 fun _ => 0) s ∧
      Op.receive.exec s = .error .poolEmpty t := by
  have hrun : runs Op.exec (fun s op => WithinLimits s op)
      (fun s => match Op.receive.exec s with
        | .error .poolEmpty _ => true
        | _ => false)
      (.downloadFile [] 0xFFFFFFFF :: leakRounds 56 0 ++ [.deliver 24 60 oneByteDatagram])
      (booted zeroApplication 0 fun _ => 0) = true := by
    decide +kernel
  obtain ⟨s, hreach, hcheck⟩ := reaches_of_runs WithinLimits .start
    (fun _ _ _ hguard => of_decide_eq_true hguard) hrun
  split at hcheck
  · next t hstopped => exact ⟨s, t, hreach, hstopped⟩
  · cases hcheck

end MiniIp.Guarantees.PoolNeverDry
