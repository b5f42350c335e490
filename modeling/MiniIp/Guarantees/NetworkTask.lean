import MiniIp.Guarantees.PoolNeverDry
import MiniIp.Invariant.ClientFrame
import MiniIp.Invariant.DhcpClient
import MiniIp.Library.Ring

/-!
# `network_task` serves the ring and comes back

`network_task` (network.c:61-73) is one turn of the main loop. It takes the whole frames that wait from
`rx_index` on, one after the other, up to the first descriptor that holds none, and then calls the two
tasks. Wherever a run of single calls has led, it returns, in a state that a longer run of single calls leads to.

The run is `Lossless`: the listeners ask for at most 32 packets together, a listener is opened only while a connection is
free, and no datagram is lost in `try_read_oack`. Beyond the limit of 32 the pool can run dry in the middle of a turn.
-/

set_option autoImplicit false

namespace MiniIp.Guarantees.NetworkTask

open MiniIp.Source MiniIp.Invariant MiniIp.Guarantees.PoolNeverDry MiniIp.Library.Ring MiniIp.Library.Runs
  MiniIp.Library.Wp

variable {s t u : Stack} {n : ℕ}

/-- The receive descriptors and the error flags, as the hardware and the driver have left them. -/
structure RingKept (s t : Stack) : Prop where
  descriptors : t.gmac.rxDescriptors = s.gmac.rxDescriptors
  index : t.gmac.rxIndex = s.gmac.rxIndex
  errors : t.gmac.tsr = s.gmac.tsr

instance : Std.Refl RingKept := ⟨fun _ => ⟨rfl, rfl, rfl⟩⟩

theorem RingKept.trans (h : RingKept s t) (h' : RingKept t u) : RingKept s u :=
  ⟨h'.descriptors.trans h.descriptors, h'.index.trans h.index, h'.errors.trans h.errors⟩

instance : IsTrans Stack RingKept := ⟨fun _ _ _ => RingKept.trans⟩

theorem RingKept.ofUnsent (h : unsent t = unsent s) : RingKept s t := by
  simp only [unsent, Prod.mk.injEq] at h
  obtain ⟨_, _, _, _, _, _, _, _, _, _, _, hdescriptors, hindex, herrors⟩ := h
  exact ⟨hdescriptors, hindex, herrors⟩

abbrev KeepsRing {α : Type} (x : Net α) : Prop := Within RingKept ErrorReported x

/-- Everything but the clients and the driver keeps it. -/
theorem Spares.keepsRing {α : Type} {x : Net α} (h : Spares True x) : KeepsRing x := by
  apply h.mono
  · intro s t hframe
    obtain ⟨hdescriptors, hindex⟩ := Prod.mk.inj (hframe.ring trivial)
    exact ⟨hdescriptors, hindex, hframe.tsr⟩
  · intro halt t herror
    exact herror

theorem keepsRing_modify {f : Stack → Stack} (hf : ∀ s, (f s).gmac = s.gmac) : KeepsRing (modify f) := by
  intro s
  have hgmac := hf s
  constructor
  · rw [hgmac]
  · rw [hgmac]
  · rw [hgmac]

theorem client_keepsRing : ClientParts (fun _ => True) fun _ x => KeepsRing x where
  toSequential := Within.sequential _
  read := by
    apply dhcpRead_of (Within.sequential _)
    · exact Spares.keepsRing (udpReceiveZeroCopy_spares _)
    · exact fun packet => Spares.keepsRing (getPacket_spares packet)
    · exact fun _ => keepsRing_modify fun _ => rfl
    · exact fun packet => Spares.keepsRing (freeNetworkPacket_spares packet)
  assign _ := keepsRing_modify fun _ => rfl
  offer := keepsRing_modify fun _ => rfl
  ack := keepsRing_modify fun _ => rfl
  enter _ _ := keepsRing_modify fun _ => rfl
  send type := by
    apply (dhcpSendPacket_frame type).mono
    · intro s t hframe
      exact .ofUnsent hframe.unsent
    · intro halt t herror
      exact herror
  draw := Spares.keepsRing random_spares
  address _ := keepsRing_modify fun _ => rfl
  netmask _ := keepsRing_modify fun _ => rfl

theorem dhcpTask_keepsRing : KeepsRing dhcpTask := dhcpTask_of client_keepsRing fun _ => trivial

/-- The driver takes the frame of this descriptor. -/
def Whole (d : RxDescriptor) : Prop := d.owner = .cpu ∧ d.startOfFrame = true ∧ d.endOfFrame = true

/-- A packet has been taken from `rx_index`, or the loop ends there. -/
def Turned (s : Stack) (more : Bool) (t : Stack) : Prop :=
  if more = true then
    Whole (s.gmac.rxDescriptors s.gmac.rxIndex) ∧ t.gmac.rxIndex = s.gmac.rxIndex + 1 ∧
      t.gmac.rxDescriptors = Function.update s.gmac.rxDescriptors s.gmac.rxIndex
        { s.gmac.rxDescriptors s.gmac.rxIndex with owner := .gmac }
  else
    ¬ Whole (s.gmac.rxDescriptors s.gmac.rxIndex) ∧ t.gmac.rxIndex = s.gmac.rxIndex ∧
      t.gmac.rxDescriptors = Function.update s.gmac.rxDescriptors s.gmac.rxIndex
        { s.gmac.rxDescriptors s.gmac.rxIndex with owner := .gmac }

theorem gmacReceive_turned :
    wp gmacReceive (fun received t => Turned s received.isSome t) (fun _ _ => True) s := by
  unfold gmacReceive
  simp only [wp_bind, wp_get, wp_ite, wp_pure, wp_modify]
  split
  · next howner =>
    refine ⟨?_, rfl, ?_⟩
    · intro hwhole
      rw [hwhole.1] at howner
      cases howner
    · rw [← howner, Function.update_eq_self]
  · next howner =>
    have hcpu : (s.gmac.rxDescriptors s.gmac.rxIndex).owner = .cpu := by
      cases hcase : (s.gmac.rxDescriptors s.gmac.rxIndex).owner with
      | cpu => rfl
      | gmac => exact absurd hcase howner
    split
    · next hpiece =>
      refine ⟨?_, rfl, rfl⟩
      intro hwhole
      simp [hwhole.2.1, hwhole.2.2] at hpiece
    · next hpiece =>
      rw [not_or, Bool.not_eq_false, Bool.not_eq_false] at hpiece
      split
      · trivial
      · next p hslot =>
        rw [wp_bind, wp_modifyPacket, wp_bind]
        apply wp_partial (Spares.keepsRing allocateNetworkPacket_spares _)
        intro q t hkept
        simp only [wp_bind, wp_modify, wp_pure]
        have hdescriptors : t.gmac.rxDescriptors = s.gmac.rxDescriptors := hkept.descriptors
        have hindex : t.gmac.rxIndex = s.gmac.rxIndex := hkept.index
        refine ⟨⟨hcpu, hpiece⟩, ?_, ?_⟩
        · simp [hindex]
        · simp [hdescriptors]

theorem Turned.keeps {more : Bool} (h : Turned s more t) (hkept : RingKept t u) : Turned s more u := by
  unfold Turned at *
  rw [hkept.index, hkept.descriptors]
  exact h

theorem receivePacket_turned : wp receivePacket (fun more t => Turned s more t) (fun _ _ => True) s := by
  unfold receivePacket
  rw [wp_bind]
  apply wp_next gmacReceive_turned
  intro received t ht
  cases received with
  | none => exact ht
  | some packet =>
    simp only [wp_bind, wp_pure]
    apply wp_partial (Spares.keepsRing (handleMac_spares packet) t)
    intro _ u hkept
    exact ht.keeps hkept

/-- `n` frames have been taken, up to the first descriptor that holds none, and the ring is the hardware's there. -/
structure Served (s t : Stack) (n : ℕ) : Prop where
  most : n ≤ 32
  whole : ∀ k < n, Whole (s.gmac.rxDescriptors (slot s.gmac.rxIndex k))
  stopped : n < 32 → ¬ Whole (s.gmac.rxDescriptors (slot s.gmac.rxIndex n))
  index : t.gmac.rxIndex = slot s.gmac.rxIndex n
  emptied : ∀ k ≤ n, (t.gmac.rxDescriptors (slot s.gmac.rxIndex k)).owner = .gmac
  others : ∀ k, n < k → k < 32 →
    t.gmac.rxDescriptors (slot s.gmac.rxIndex k) = s.gmac.rxDescriptors (slot s.gmac.rxIndex k)

theorem Served.keeps (h : Served s t n) (hkept : RingKept t u) : Served s u n := by
  constructor
  · exact h.most
  · exact h.whole
  · exact h.stopped
  · rw [hkept.index]
    exact h.index
  · rw [hkept.descriptors]
    exact h.emptied
  · rw [hkept.descriptors]
    exact h.others

/-- The slots before the cursor, in the middle of the loop. -/
structure Turning (s t : Stack) (n : ℕ) : Prop where
  whole : ∀ k < n, Whole (s.gmac.rxDescriptors (slot s.gmac.rxIndex k))
  index : t.gmac.rxIndex = slot s.gmac.rxIndex n
  emptied : ∀ k < n, (t.gmac.rxDescriptors (slot s.gmac.rxIndex k)).owner = .gmac
  others : ∀ k, n ≤ k → k < 32 →
    t.gmac.rxDescriptors (slot s.gmac.rxIndex k) = s.gmac.rxDescriptors (slot s.gmac.rxIndex k)

theorem turning_start : Turning s s 0 where
  whole k hk := absurd hk (Nat.not_lt_zero k)
  index := (slot_zero _).symm
  emptied k hk := absurd hk (Nat.not_lt_zero k)
  others _ _ _ := rfl

theorem slot_ne (index : Fin 32) {k n : ℕ} (hk : k < 32) (hn : n < 32) (hne : k ≠ n) : slot index k ≠ slot index n :=
  fun heq => hne (slot_inj index hk hn heq)

theorem Turning.next (h : Turning s t n) (hn : n < 32) (hturned : Turned t true u) : Turning s u (n + 1) := by
  unfold Turned at hturned
  rw [if_pos rfl, h.index, h.others n (le_refl _) hn] at hturned
  obtain ⟨hwhole, hindex, hdescriptors⟩ := hturned
  constructor
  · intro k hk
    rcases Nat.lt_succ_iff_lt_or_eq.mp hk with hlt | rfl
    · exact h.whole k hlt
    · exact hwhole
  · rw [hindex, slot_next]
  · intro k hk
    rw [hdescriptors]
    rcases Nat.lt_succ_iff_lt_or_eq.mp hk with hlt | rfl
    · rw [Function.update_of_ne (slot_ne _ (by omega) hn (by omega))]
      exact h.emptied k hlt
    · rw [Function.update_self]
  · intro k hk hlt
    rw [hdescriptors, Function.update_of_ne (slot_ne _ hlt hn (by omega))]
    exact h.others k (by omega) hlt

theorem Turning.last (h : Turning s t n) (hn : n < 32) (hturned : Turned t false u) : Served s u n := by
  unfold Turned at hturned
  rw [if_neg Bool.false_ne_true, h.index, h.others n (le_refl _) hn] at hturned
  obtain ⟨hwhole, hindex, hdescriptors⟩ := hturned
  constructor
  · omega
  · exact h.whole
  · exact fun _ => hwhole
  · exact hindex
  · intro k hk
    rw [hdescriptors]
    rcases Nat.lt_or_eq_of_le hk with hlt | rfl
    · rw [Function.update_of_ne (slot_ne _ (by omega) hn (by omega))]
      exact h.emptied k hlt
    · rw [Function.update_self]
  · intro k hk hlt
    rw [hdescriptors, Function.update_of_ne (slot_ne _ hlt hn (by omega))]
    exact h.others k (by omega) hlt

/-- After 32 rounds the cursor has come round to a slot that has been emptied. -/
theorem Turning.full (h : Turning s t 32) : Served s t 32 := by
  constructor
  · exact le_refl _
  · exact h.whole
  · exact fun hlt => absurd hlt (lt_irrefl _)
  · exact h.index
  · intro k hk
    rcases Nat.lt_or_eq_of_le hk with hlt | rfl
    · exact h.emptied k hlt
    · rw [slot_full, ← slot_zero s.gmac.rxIndex]
      exact h.emptied 0 (by omega)
  · intro k hk hlt
    omega

theorem networkTaskReceive_served {rounds : ℕ} (h : Turning s t n) (hn : n + rounds = 32) :
    wp (networkTaskReceive rounds) (fun _ u => ∃ n, Served s u n) (fun _ _ => True) t := by
  induction rounds generalizing t n with
  | zero =>
    obtain rfl : n = 32 := hn
    exact ⟨32, h.full⟩
  | succ rounds ih =>
    rw [networkTaskReceive, wp_bind]
    apply wp_next receivePacket_turned
    intro more u hturned
    rw [wp_ite]
    split
    · next hmore =>
      rw [hmore] at hturned
      exact ih (h.next (by omega) hturned) (by omega)
    · next hmore =>
      rw [Bool.not_eq_true] at hmore
      rw [hmore] at hturned
      exact ⟨n, h.last (by omega) hturned⟩

theorem networkTask_served : wp networkTask (fun _ t => ∃ n, Served s t n) (fun _ _ => True) s := by
  unfold networkTask
  rw [wp_bind]
  apply wp_next (networkTaskReceive_served turning_start (by omega))
  intro _ t hserved
  obtain ⟨n, ht⟩ := hserved
  have htasks : KeepsRing (do arpTask; dhcpTask) := Within.bind (Spares.keepsRing arpTask_spares) fun _ => dhcpTask_keepsRing
  apply wp_partial (htasks t)
  intro _ u hkept
  exact ⟨n, ht.keeps hkept⟩

variable {application : Application} {time : Time} {entropy : Nat → UInt32}

/-- Some call of a longer run has stopped. -/
def StopsAt (init : Stack) (halt : Halt) (t : Stack) : Prop :=
  ∃ s op, Reaches Op.exec Lossless init s ∧ WithinLimits s op ∧ op.exec s = .error halt t

theorem reaches_exec {init : Stack} (op : Op) (h : Reaches Op.exec Lossless init s) (met : Lossless s op) :
    wp op.exec (fun _ t => Reaches Op.exec Lossless init t) (StopsAt init) s := by
  unfold wp
  cases hrun : op.exec s with
  | ok _ t => exact h.step op met hrun
  | error halt t => exact ⟨s, op, h, met.1, hrun⟩

theorem networkTaskReceive_reaches {init : Stack} {rounds : ℕ} (h : Reaches Op.exec Lossless init s) :
    wp (networkTaskReceive rounds) (fun _ t => Reaches Op.exec Lossless init t) (StopsAt init) s := by
  induction rounds generalizing s with
  | zero => exact h
  | succ rounds ih =>
    have hreceive := reaches_exec .receive h ⟨trivial, id⟩
    simp only [Op.exec, wp_bind, wp_pure] at hreceive
    rw [networkTaskReceive, wp_bind]
    apply wp_next hreceive
    intro more t ht
    rw [wp_ite]
    split
    · exact ih ht
    · exact ht

/-- One turn is a run of single calls. -/
theorem networkTask_reaches {init : Stack} (h : Reaches Op.exec Lossless init s) :
    wp networkTask (fun _ t => Reaches Op.exec Lossless init t) (StopsAt init) s := by
  unfold networkTask
  rw [wp_bind]
  apply wp_next (networkTaskReceive_reaches h)
  intro _ t ht
  rw [wp_bind]
  apply wp_next (reaches_exec .arpTask ht ⟨trivial, id⟩)
  intro _ u hu
  exact reaches_exec .dhcpTask hu ⟨trivial, id⟩

/-- A call that stops has found a transmit error, as long as no ARP entry has been evicted. -/
theorem StopsAt.transmitError {halt : Halt} (h : StopsAt (booted application time entropy) halt t)
    (hkept : NoEviction t.trace) : halt = .transmitError := by
  obtain ⟨s, op, hreach, hop, hstopped⟩ := h
  have hs : Sound False (fun _ _ _ _ => True) 32 [] s :=
    reaches_sound_lossless hreach fun s op hok => ⟨permitted_of_withinLimits hok.1, hok.2⟩
  have hhalted := wp_error (exec_sound 1 hs (by simp) (permitted_of_withinLimits hop)) hstopped
  cases halt with
  | transmitError => rfl
  | nullPointer => exact absurd rfl hhalted.node
  | poolEmpty =>
    obtain ⟨hfree, held, hheld, hbase⟩ := hhalted.pool rfl
    exact absurd hfree (pool_ne_nil hbase hheld (hbase.table hkept))

def SameErrors (s t : Stack) : Prop := t.gmac.tsr = s.gmac.tsr

instance : Std.Refl SameErrors := ⟨fun _ => rfl⟩

instance : IsTrans Stack SameErrors := ⟨fun _ _ _ h h' => Eq.trans h' h⟩

/-- The flags that stop a turn were set before it began. -/
theorem networkTask_errors : Within SameErrors ErrorReported networkTask := by
  have hkeeps : ∀ {x : Net Unit}, KeepsRing x → Within SameErrors ErrorReported x :=
    fun hx => hx.mono (fun _ _ hkept => hkept.errors) fun _ _ herror => herror
  have hreceive : Within SameErrors ErrorReported receivePacket :=
    Within.mono receivePacket_spares (fun _ _ hframe => hframe.tsr) fun _ _ herror => herror
  have hloop : ∀ rounds, Within SameErrors ErrorReported (networkTaskReceive rounds) := by
    intro rounds
    induction rounds with
    | zero => exact .pure _
    | succ rounds ih => exact .bind hreceive fun _ => .ite ih (.pure _)
  exact .bind (hloop 32) fun _ => .bind (hkeeps (Spares.keepsRing arpTask_spares)) fun _ => hkeeps dhcpTask_keepsRing

/-- In a run within the limits that loses no datagram (`Lossless`), a turn of the main loop takes the whole frames that
wait and ends in a state of a longer run of this kind. It stops on a transmit error only, that the hardware has reported
before, as long as no ARP entry is evicted. -/
theorem network_task_serves (h : Reaches Op.exec Lossless (booted application time entropy) s) :
    wp networkTask
      (fun _ t => Reaches Op.exec Lossless (booted application time entropy) t ∧ ∃ n, Served s t n)
      (fun halt t => NoEviction t.trace → halt = .transmitError ∧ transmitErrors s.gmac.tsr = true) s := by
  have hboth := wp_and (wp_and (networkTask_reaches h) networkTask_served) (networkTask_errors s)
  apply wp_mono hboth
  · intro _ t hpost
    exact hpost.1
  · intro halt t hpost hkept
    obtain ⟨⟨hstops, _⟩, hsame, herror⟩ := hpost
    have hhalt := hstops.transmitError hkept
    refine ⟨hhalt, ?_⟩
    rw [← hsame]
    exact herror hhalt

/-- Three frames wait when `network_task` is called. -/
theorem network_task_serves_three :
    ∃ s t, networkTask s = .ok () t ∧ s.gmac.rxIndex = 0 ∧ t.gmac.rxIndex = 3 ∧
      Reaches Op.exec Lossless (booted zeroApplication 0 fun _ => 0) t ∧ ∃ n, Served s t n := by
  have hrun : runs Op.exec (fun _ _ => true)
      (fun s => returnsWith (fun t => s.gmac.rxIndex = 0 ∧ t.gmac.rxIndex = 3) networkTask s)
      [.deliver 0 60 oneByteDatagram, .deliver 1 60 oneByteDatagram, .deliver 2 60 oneByteDatagram]
      (booted zeroApplication 0 fun _ => 0) = true := by
    decide +kernel
  obtain ⟨s, hreach, hcheck⟩ := reaches_of_runs Lossless .start
    (by simp [Op.deliver, Lossless, WithinLimits, LosesPacket]) hrun
  have hreturns := wp_and (wp_of_returnsWith hcheck) (network_task_serves hreach)
  obtain ⟨_, t, hreturned, hpost⟩ := returns_of_wp (wp_mono hreturns (fun _ _ ht => ht) fun _ _ hstop => hstop.1)
  obtain ⟨hindex, hlonger, hserved⟩ := hpost
  have hindices := of_decide_eq_true hindex
  exact ⟨s, t, hreturned, hindices.1, hindices.2, hlonger, hserved⟩

end MiniIp.Guarantees.NetworkTask
