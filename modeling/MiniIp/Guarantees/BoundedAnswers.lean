import MiniIp.Guarantees.ArpCache
import MiniIp.Invariant.ArpQueue
import MiniIp.Invariant.ArpRequests
import MiniIp.Invariant.Emission

/-!
# How much the stack sends

The frames that a run sends are bounded by its calls alone, whatever the frames contain that are received in it: two
for each frame that is received, as many as there are entries for each turn of `arp_task`, two for each turn of a
download, and one for each other call that sends at all. A frame that arrives cannot make the stack send more.

This is said of runs in which no entry of the ARP table has been evicted. An evicted entry stays in the list of the
free ones, and once it is in use twice, more than two packets may wait on it.
-/

set_option autoImplicit false

namespace MiniIp.Guarantees.BoundedAnswers

open MiniIp.Source MiniIp.Invariant MiniIp.Library.Runs MiniIp.Library.Wp

variable {application : Application} {time : Time} {entropy : Nat → UInt32} {s t u : Stack} {p : PacketId} {m n : ℕ}

/-- At most so many frames have been sent. -/
def SendsAtMost (n : ℕ) (s t : Stack) : Prop := (sentFrames t.trace).length ≤ (sentFrames s.trace).length + n

theorem SendsAtMost.ofOutgoing {P : Ip → Prop} (h : Outgoing P n s t) : SendsAtMost n s t := by
  obtain ⟨frames, hframes, hlength, _⟩ := h.frames
  rw [SendsAtMost, hframes, List.length_append]
  omega

theorem SendsAtMost.trans (h : SendsAtMost m s t) (h' : SendsAtMost n t u) : SendsAtMost (m + n) s u := by
  unfold SendsAtMost at *
  omega

theorem SendsAtMost.mono (h : SendsAtMost m s t) (hmn : m ≤ n) : SendsAtMost n s t := by
  unfold SendsAtMost at *
  omega

/-- The table is what it is meant to be, and no packet waits twice. -/
structure Waiting (s : Stack) : Prop where
  table : ArpTable s.arp
  nodup : ∀ e, (s.arp.entries e).packetQueue.Nodup

/-- A request is answered once, and an answer sends the packets that wait for it. -/
theorem handleArp_bounded (h : Waiting s) : wp (handleArp p) (fun _ t => SendsAtMost 2 s t) (fun _ _ => True) s := by
  have hnothing : ∀ {t : Stack}, sentFrames t.trace = sentFrames s.trace → SendsAtMost 2 s t := by
    intro t hframes
    rw [SendsAtMost, hframes]
    omega
  unfold handleArp
  simp only [wp_bind, wp_getPacket, wp_ite, wp_freeNetworkPacket, wp_recordWindow, wp_get]
  let seen := s.observe (.window .handleArp (s.packets p).index (s.packets p).length arpHeaderSize)
  split
  · exact hnothing rfl
  split
  · exact hnothing rfl
  split
  · split
    · apply wp_partial (updateArpMapping_maps _ _ seen)
      intro _ t ht
      rcases ht with rfl | ⟨e, _, _, hflushed⟩
      · exact hnothing rfl
      · have hframes := hflushed.frames (h.nodup e)
        have hshort : (seen.arp.entries e).packetQueue.length ≤ 2 := h.table.short e
        show (sentFrames t.trace).length ≤ (sentFrames s.trace).length + 2
        rw [hframes, List.length_append, List.length_map, List.length_reverse]
        have hsame : (sentFrames (mapped e (readBe32 (s.packets p).data ((s.packets p).index + 14))
            (readMac (s.packets p).data ((s.packets p).index + 8)) seen).trace) = sentFrames s.trace := rfl
        rw [hsame]
        omega
    · exact hnothing rfl
  split
  · split
    · cases hpool : seen.freeNetworkPackets with
      | nil =>
        unfold sendArpPacket
        rw [wp_bind]
        unfold wp
        rw [allocateNetworkPacket_nil hpool]
        trivial
      | cons q rest =>
        apply wp_partial (sendArpPacket_sent hpool _ _ .reply)
        intro _ t ht
        have hframes : (sentFrames t.trace).length = (sentFrames s.trace).length + 1 := by
          rw [ht.frames]
          rfl
        show (sentFrames t.trace).length ≤ (sentFrames s.trace).length + 2
        omega
    · exact hnothing rfl
  · exact hnothing rfl

theorem handleMac_bounded (h : Waiting s) : wp (handleMac p) (fun _ t => SendsAtMost 2 s t) (fun _ _ => True) s := by
  have hdelivered : Waiting (macDelivered s p) := ⟨h.table, h.nodup⟩
  have hfreed : wp (freeNetworkPacket p) (fun _ t => SendsAtMost 2 s t) (fun _ _ => True) (macDelivered s p) := by
    rw [wp_freeNetworkPacket]
    exact Nat.le_add_right _ _
  unfold handleMac
  simp only [wp_bind, wp_getPacket, wp_ite, wp_recordWindow, wp_modifyPacket]
  split
  · rw [wp_freeNetworkPacket]
    exact Nat.le_add_right _ _
  split
  · exact handleArp_bounded hdelivered
  split
  · apply wp_next ((handleIp_transmits (P := fun _ => True) p).sends (macDelivered s p))
    intro _ t ht
    exact (SendsAtMost.ofOutgoing ht).mono (by decide)
  · exact hfreed

theorem receivePacket_bounded (h : Waiting s) :
    wp receivePacket (fun _ t => SendsAtMost 2 s t) (fun _ _ => True) s := by
  have hnothing : Apart [] 0 s := ⟨by simp, by simp, by simp, by simp⟩
  have htransmits : Transmits (fun _ => True) 0 gmacReceive := gmacReceive_transmits
  unfold receivePacket
  rw [wp_bind]
  apply wp_partial (wp_and (gmacReceive_passesBy hnothing) (htransmits s))
  rintro received t ⟨⟨_, harp, _⟩, ht⟩
  have hsilent : SendsAtMost 0 s t := .ofOutgoing ht.toOutgoing
  cases received with
  | none => exact hsilent.mono (Nat.zero_le 2)
  | some p =>
    have hwaiting : Waiting t := by
      constructor
      · rw [harp]
        exact h.table
      · intro e
        rw [harp]
        exact h.nodup e
    rw [wp_bind]
    apply wp_next (handleMac_bounded hwaiting)
    intro _ u hu
    have hboth := hsilent.trans hu
    rwa [Nat.zero_add] at hboth

theorem waiting_intact (h : Intact False (fun _ _ _ _ => True) s) (hno : NoEviction s.trace) : Waiting s := by
  obtain ⟨limit, held, hsound⟩ := h
  exact ⟨hsound.table hno, ArpCache.owned_queue_nodup hsound.owned⟩

/-- A call in a state that has been reached without an eviction. -/
theorem exec_bounded (op : Op) (h : Waiting s) :
    wp op.exec (fun _ t => SendsAtMost (budget s.arp.usedEntries.length op) s t) (fun _ _ => True) s := by
  by_cases hop : op = .receive
  · subst hop
    show wp (do let _ ← receivePacket) _ _ _
    rw [wp_bind]
    exact receivePacket_bounded h
  · apply wp_next (exec_sends (P := fun _ => True) hop s)
    intro _ t ht
    exact .ofOutgoing ht

/-- There are no more entries in use than there are. -/
theorem used_length {a : Arp} (h : ArpTable a) : a.usedEntries.length ≤ 8 := by
  have hnodup : a.usedEntries.Nodup := (List.nodup_append.mp h.nodup).2.1
  have hcard := hnodup.length_le_card
  simpa using hcard

theorem budget_mono (op : Op) (h : m ≤ n) : budget m op ≤ budget n op := by
  cases op with
  | arpTask => exact h
  | _ => exact Nat.le_refl _

theorem execAll_bounded {ops : List Op} (h : Reaches Op.exec (fun _ _ => True) (booted application time entropy) s)
    (hrun : execAll ops s = .ok () t) (hno : NoEviction t.trace) : SendsAtMost (ops.map (budget 8)).sum s t := by
  induction ops generalizing s with
  | nil =>
    cases hrun
    exact Nat.le_refl _
  | cons op rest ih =>
    have hpast : s.trace <:+ t.trace := by
      have hsuffix := execAll_suffix (op :: rest) s
      rwa [hrun] at hsuffix
    have hwaiting : Waiting s :=
      waiting_intact (reaches_intact False h fun hfalse => hfalse.elim) (noEviction_suffix hno hpast)
    have hbind : (op.exec >>= fun _ => execAll rest) s = .ok () t := hrun
    simp only [bind, EStateM.bind] at hbind
    cases hreturned : op.exec s with
    | ok _ u =>
      rw [hreturned] at hbind
      have hfirst := wp_ok (exec_bounded op hwaiting) hreturned
      have hrest := ih (h.step op trivial hreturned) hbind
      have hmost := budget_mono op (used_length hwaiting.table)
      rw [List.map_cons, List.sum_cons]
      exact (hfirst.mono hmost).trans hrest
    | error _ _ =>
      rw [hreturned] at hbind
      cases hbind

/-- A run sends no more than its calls may send, if no entry has been evicted in it. -/
theorem answers_bounded {ops : List Op} (h : execAll ops (booted application time entropy) = .ok () t)
    (hno : NoEviction t.trace) : (sentFrames t.trace).length ≤ (ops.map (budget 8)).sum := by
  have hbound := execAll_bounded .start h hno
  have hnothing : sentFrames (booted application time entropy).trace = [] := by
    rw [booted_fresh.trace]
    rfl
  rwa [SendsAtMost, hnothing, List.length_nil, Nat.zero_add] at hbound

/-- The host is asked for its address, asks for another one, and asks again. -/
def askedAndAsking : List Op :=
  [.setOurIp 0x0A000001, .deliver 0 60 (macBytes broadcastMac ++ macBytes zeroMac ++ be16Bytes etherTypeArp ++
      arpBytes arpOperationRequest zeroMac 0x0A000002 zeroMac 0x0A000001), .receive, .sendToIp [1] 0x0A000002,
    .tick 1500, .arpTask]

/-- Three frames have been sent, where the calls may send eleven. -/
theorem answers_bounded_eleven : ∃ t, execAll askedAndAsking (booted zeroApplication 0 fun _ => 0) = .ok () t ∧
    (sentFrames t.trace).length = 3 ∧ (sentFrames t.trace).length ≤ 11 := by
  have hrun : returnsWith (fun t => (sentFrames t.trace).length = 3 ∧ NoEviction t.trace) (execAll askedAndAsking)
      (booted zeroApplication 0 fun _ => 0) = true := by
    decide +kernel
  obtain ⟨_, t, hreturned, hcheck⟩ := returns_of_wp (wp_of_returnsWith hrun)
  obtain ⟨hthree, hno⟩ := of_decide_eq_true hcheck
  exact ⟨t, hreturned, hthree, answers_bounded hreturned hno⟩

end MiniIp.Guarantees.BoundedAnswers
