import MiniIp.Guarantees.AddressResolution
import MiniIp.Invariant.ArpEffects

/-!
# ARP frames and the cache

No ARP frame adds or removes an entry, gives one another address or changes a
valid one. An entry becomes valid by a reply to us from its address, and by
nothing else, and what waits on it is then sent to the MAC of the reply.

`update_arp_mapping` (arp.c:254-265) looks the address up in `used_entries`, and
`handle_arp` (arp.c:286) asks it to leave a valid entry alone.
-/

set_option autoImplicit false

namespace MiniIp.Guarantees.ArpCache

open MiniIp.Source MiniIp.Invariant MiniIp.Library.Runs MiniIp.Library.Wp

/-- The entry has become valid. -/
structure Validated (s t : Stack) (e : ArpEntryId) : Prop where
  before : (s.arp.entries e).containValidMapping = false
  after : (t.arp.entries e).containValidMapping = true

/-- What an ARP frame leaves of the table. -/
structure NotPoisoned (frame : NetworkPacket) (s t : Stack) : Prop where
  used : t.arp.usedEntries = s.arp.usedEntries
  free : t.arp.freeEntries = s.arp.freeEntries
  ips : ∀ e, (t.arp.entries e).ip = (s.arp.entries e).ip
  valid : ∀ e, (s.arp.entries e).containValidMapping = true → t.arp.entries e = s.arp.entries e
  reply : ∀ e, Validated s t e → Resolves s frame e
  mac : ∀ e, Validated s t e → (t.arp.entries e).mac = arpSendersMac frame

/-- What has waited on the entry has been sent to the MAC, in the order of the queue. -/
structure WaitingSent (mac : Mac) (e : ArpEntryId) (s t : Stack) : Prop where
  queue : (t.arp.entries e).packetQueue = []
  passed : passedToMac t.trace =
    ((s.arp.entries e).packetQueue.reverse.map fun q => (q, mac, etherTypeIpv4)) ++ passedToMac s.trace
  frames : sentFrames t.trace = (s.arp.entries e).packetQueue.reverse.map (ipv4Frame mac s) ++ sentFrames s.trace

variable {s t : Stack} {frame : NetworkPacket} {e e' : ArpEntryId}

theorem not_poisoned_ignored (h : Ignored s t) : NotPoisoned frame s t := by
  have hnone : ∀ e, ¬ Validated s t e := by
    intro e hvalidated
    have hafter := hvalidated.after
    rw [h.arp, hvalidated.before] at hafter
    cases hafter
  constructor
  · rw [h.arp]
  · rw [h.arp]
  · intro e
    rw [h.arp]
  · intro e _
    rw [h.arp]
  · intro e hvalidated
    exact absurd hvalidated (hnone e)
  · intro e hvalidated
    exact absurd hvalidated (hnone e)

theorem Resolved.other (h : Resolved frame e s t) (he : e' ≠ e) : t.arp.entries e' = s.arp.entries e' := by
  rw [h.table.others e' he, mapped_other he]

/-- The entry that the frame resolves is the only one that has become valid. -/
theorem Resolved.validated (h : Resolved frame e s t) (he : Validated s t e') : e' = e := by
  by_contra hne
  have hafter := he.after
  rw [Resolved.other h hne, he.before] at hafter
  cases hafter

theorem not_poisoned_resolved (h : Resolved frame e s t) : NotPoisoned frame s t := by
  obtain ⟨queue, hentry⟩ := h.table.entry
  rw [mapped_entry] at hentry
  constructor
  · exact h.table.used
  · exact h.table.free
  · intro e'
    by_cases he : e' = e
    · rw [he, hentry]
    · rw [Resolved.other h he]
  · intro e' hvalid
    by_cases he : e' = e
    · rw [he, h.entry.invalid] at hvalid
      cases hvalid
    · exact Resolved.other h he
  · intro e' hvalidated
    rw [Resolved.validated h hvalidated]
    exact h.resolves
  · intro e' hvalidated
    rw [Resolved.validated h hvalidated, hentry]

theorem waiting_sent (hnodup : (s.arp.entries e).packetQueue.Nodup)
    (h : Flushed e (s.arp.entries e).packetQueue (mapped e (arpSendersIp frame) (arpSendersMac frame) s) t) :
    WaitingSent (arpSendersMac frame) e s t := by
  have hmac : ((mapped e (arpSendersIp frame) (arpSendersMac frame) s).arp.entries e).mac = arpSendersMac frame := by
    rw [mapped_entry]
  constructor
  · exact h.queue
  · rw [h.passed, hmac]
    rfl
  · rw [h.frames hnodup, hmac]
    rfl

variable {application : Application} {time : Time} {entropy : Nat → UInt32} {ok : Stack → Op → Prop}

/-- A packet that is stored once waits once. -/
theorem owned_queue_nodup {held : List PacketId} (h : Owned held s) (e : ArpEntryId) :
    (s.arp.entries e).packetQueue.Nodup := by
  rw [List.nodup_iff_count_le_one]
  intro q
  have hone := h q
  have hsum : (s.arp.entries e).packetQueue.count q ≤ ∑ e', (s.arp.entries e').packetQueue.count q :=
    Finset.single_le_sum (f := fun e' => (s.arp.entries e').packetQueue.count q) (fun _ _ => Nat.zero_le _)
      (Finset.mem_univ e)
  simp only [occurrences] at hone
  omega

/-- Whatever the frame is that has been received into a packet, the cache is not poisoned, also when the call never
returns. -/
theorem handleArp_not_poisoned (h : Reaches Op.exec ok (booted application time entropy) s) (p : PacketId)
    (frame : NetworkPacket) :
    wp (handleArp p)
      (fun _ t => NotPoisoned frame s t ∧ ∀ e, Validated s t e →
        WaitingSent (arpSendersMac frame) e (s.write p frame) t)
      (fun _ t => NotPoisoned frame s t) (s.write p frame) := by
  obtain ⟨_, _, hs⟩ := reaches_intact False h fun w => w.elim
  have hframe : (s.write p frame).packets p = frame := Function.update_self _ _ _
  have heffect := handleArp_effect p (s.write p frame)
  rw [hframe] at heffect
  have hkept : ∀ t, NotPoisoned frame (s.write p frame) t → NotPoisoned frame s t := by
    intro t ht
    refine ⟨ht.used, ht.free, ht.ips, ht.valid, fun e he => ?_, fun e he => ht.mac e ⟨he.before, he.after⟩⟩
    obtain ⟨hoperation, hheader, htarget, hsender, hdistinct⟩ := ht.reply e ⟨he.before, he.after⟩
    exact ⟨hoperation, hheader, htarget, hsender, hdistinct⟩
  apply wp_mono heffect
  · intro _ t ht
    rcases ht with hignored | ⟨e, hresolved, hflushed⟩
    · have hclean := hkept t (not_poisoned_ignored hignored)
      refine ⟨hclean, fun e he => ?_⟩
      have hafter := he.after
      rw [hignored.arp] at hafter
      exact absurd (he.before.symm.trans hafter) Bool.false_ne_true
    · refine ⟨hkept t (not_poisoned_resolved hresolved), fun e' he => ?_⟩
      have hone : e' = e := Resolved.validated hresolved ⟨he.before, he.after⟩
      rw [hone]
      exact waiting_sent (owned_queue_nodup hs.owned e) hflushed
  · intro _ t ht
    rcases ht with hignored | ⟨e, hresolved⟩
    · exact hkept t (not_poisoned_ignored hignored)
    · exact hkept t (not_poisoned_resolved hresolved)

/-- The reply of 10.0.0.1 to 10.0.0.99, as `handle_arp` receives it. -/
def replyPacket : NetworkPacket :=
  { zeroPacket with
    data := memoryOf (arpBytes arpOperationReply ⟨#v[2, 0, 0, 0, 0, 1]⟩ 0x0A000001 ⟨#v[2, 0, 0, 0, 0, 99]⟩ 0x0A000063)
    length := 28 }

/-- The reply makes the entry of its sender valid, and the packet that waits on it is sent. -/
theorem handleArp_not_poisoned_by_reply :
    ∃ s, Reaches Op.exec (fun _ _ => True) (booted zeroApplication 0 fun _ => 0) s ∧
      (s.arp.entries 7).packetQueue.length = 1 ∧ ∃ t, handleArp 60 (s.write 60 replyPacket) = .ok () t ∧
        Validated s t 7 ∧ NotPoisoned replyPacket s t ∧
        WaitingSent (arpSendersMac replyPacket) 7 (s.write 60 replyPacket) t := by
  have hrun : runs Op.exec (fun _ _ => true)
      (fun s => (s.arp.entries 7).packetQueue.length = 1 && (s.arp.entries 7).containValidMapping = false &&
        returnsWith (fun t => (t.arp.entries 7).containValidMapping) (handleArp 60) (s.write 60 replyPacket))
      (.setOurIp 0x0A000063 :: AddressResolution.sendToHosts 1) (booted zeroApplication 0 fun _ => 0) = true := by
    decide +kernel
  obtain ⟨s, hreach, hcheck⟩ := reaches_of_runs (fun _ _ => True) .start (fun _ _ _ _ => trivial) hrun
  simp only [Bool.and_eq_true, decide_eq_true_eq] at hcheck
  obtain ⟨⟨hqueue, hbefore⟩, hreturns⟩ := hcheck
  obtain ⟨_, t, ht, hafter⟩ := returns_of_wp (wp_of_returnsWith hreturns)
  have hvalidated : Validated s t 7 := ⟨hbefore, hafter⟩
  obtain ⟨hclean, hsent⟩ := wp_ok (handleArp_not_poisoned hreach 60 replyPacket) ht
  exact ⟨s, hreach, hqueue, t, ht, hvalidated, hclean, hsent 7 hvalidated⟩

end MiniIp.Guarantees.ArpCache
