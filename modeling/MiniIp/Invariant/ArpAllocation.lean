import MiniIp.Invariant.ArpQueue
import MiniIp.Invariant.SoundRun

/-!
# A new entry

`arp_send` to an address that no entry has: an entry is taken, from the free ones or by evicting the oldest one in
use, the packet waits on it, and a request is sent. Nothing that is done for the entry touches the packet, which is
stored nowhere until it waits. An evicted entry loses what waited on it.
-/

set_option autoImplicit false

namespace MiniIp.Invariant

open MiniIp.Source MiniIp.Library.Counting MiniIp.Library.Wp

variable {held packets : List PacketId} {e x : ArpEntryId} {s t : Stack} {p q : PacketId} {ip : Ip}

/-- The packet is stored nowhere. -/
structure Unstored (p : PacketId) (s : Stack) : Prop where
  pool : p ∉ s.freeNetworkPackets
  tx : ∀ i, s.gmac.txPackets i ≠ some p
  rx : ∀ i, s.gmac.rxPackets i ≠ some p
  queues : ∀ x, p ∉ (s.arp.entries x).packetQueue

theorem slots_pos {n : ℕ} {f : Fin n → Option PacketId} {i : Fin n} (h : f i = some p) : 0 < slots f p := by
  have hle := member_le_sum (fun j => if f j = some p then 1 else 0) i
  rw [if_pos h] at hle
  exact hle

theorem queued_pos (h : p ∈ (s.arp.entries x).packetQueue) : 0 < ∑ y, (s.arp.entries y).packetQueue.count p := by
  have hle := member_le_sum (fun y => (s.arp.entries y).packetQueue.count p) x
  have hpos := List.count_pos_iff.mpr h
  omega

theorem Owned.unstored (h : Owned held s) (hp : p ∈ held) : Unstored p s := by
  have hzero := h.occurrences_eq_zero hp
  simp only [occurrences] at hzero
  constructor
  · intro hpool
    have hpos := List.count_pos_iff.mpr hpool
    omega
  · intro i hi
    have hpos := slots_pos hi
    omega
  · intro i hi
    have hpos := slots_pos hi
    omega
  · intro x hx
    have hpos := queued_pos hx
    omega

/-- A packet that waits on an entry is stored nowhere else. -/
theorem Owned.apart (h : Owned held s) (e : ArpEntryId) : Apart (s.arp.entries e).packetQueue e s := by
  have hsingle : ∀ q ∈ (s.arp.entries e).packetQueue, s.freeNetworkPackets.count q = 0 ∧ slots s.gmac.txPackets q = 0 ∧
      slots s.gmac.rxPackets q = 0 ∧ ∑ y, (s.arp.entries y).packetQueue.count q = 1 := by
    intro q hq
    have hone := h q
    have hpos := queued_pos hq
    simp only [occurrences] at hone
    omega
  constructor
  · intro q hq hpool
    have hpos := List.count_pos_iff.mpr hpool
    have hzero := (hsingle q hq).1
    omega
  · intro q hq i hi
    have hpos := slots_pos hi
    have hzero := (hsingle q hq).2.1
    omega
  · intro q hq i hi
    have hpos := slots_pos hi
    have hzero := (hsingle q hq).2.2.1
    omega
  · intro q hq x hx hmem
    obtain ⟨y, _, hothers⟩ := exists_single_of_sum_eq_one _ (hsingle q hq).2.2.2
    have hposx := List.count_pos_iff.mpr hmem
    have hpose := List.count_pos_iff.mpr hq
    have hxy : x = y := by
      by_contra hne
      have hzero := hothers x hne
      omega
    have hey : e = y := by
      by_contra hne
      have hzero := hothers e hne
      omega
    exact hx (hxy.trans hey.symm)

theorem Unstored.apart (h : Unstored p s) (e : ArpEntryId) : Apart [p] e s := by
  constructor
  · intro q hq
    rw [List.mem_singleton.mp hq]
    exact h.pool
  · intro q hq
    rw [List.mem_singleton.mp hq]
    exact h.tx
  · intro q hq
    rw [List.mem_singleton.mp hq]
    exact h.rx
  · intro q hq x _
    rw [List.mem_singleton.mp hq]
    exact h.queues x

theorem Unstored.passedBy (h : Unstored p s) (ht : PassesBy [p] e s t) : Unstored p t := by
  have hmem : p ∈ [p] := List.mem_singleton_self p
  refine ⟨ht.apart.pool p hmem, ht.apart.tx p hmem, ht.apart.rx p hmem, fun x => ?_⟩
  by_cases hx : x = e
  · obtain ⟨retryCount, time, hentry⟩ := ht.entry
    rw [hx, hentry]
    exact h.queues e
  · exact ht.apart.queues p hmem x hx

/-- An entry has been taken, and nothing waits on it. -/
structure Taken (p : PacketId) (e : ArpEntryId) (s t : Stack) : Prop where
  queue : (t.arp.entries e).packetQueue = []
  count : (t.arp.entries e).packetCount = 0
  ips : ∀ x, (t.arp.entries x).ip = (s.arp.entries x).ip
  taken : e ∈ t.arp.usedEntries
  used : ∀ x ∈ t.arp.usedEntries, x ∈ s.arp.usedEntries ∨ x = e
  unstored : Unstored p t
  trace : ∃ new, t.trace = new ++ s.trace ∧ ∀ event ∈ new, Beside [p] event

theorem freeEntryPackets_empties (hqueue : (s.arp.entries x).packetQueue = packets) :
    wp (freeEntryPackets x packets) (fun _ t => (t.arp.entries x).packetQueue = []) (fun _ _ => True) s := by
  induction packets generalizing s with
  | nil => exact hqueue
  | cons p rest ih =>
    rw [freeEntryPackets]
    simp only [wp_bind, wp_modifyEntry, wp_freeNetworkPacket]
    apply ih
    simp

theorem freeEntry_empties (x : ArpEntryId) (s : Stack) :
    wp (freeEntry x) (fun _ t => (t.arp.entries x).packetQueue = []) (fun _ _ => True) s := by
  unfold freeEntry
  simp only [wp_bind, wp_get]
  apply wp_next (freeEntryPackets_empties rfl)
  intro _ t ht
  exact ht

/-- The end of `allocate_entry`, on an entry that nothing waits on. -/
theorem takeEntry_takes (hqueue : (s.arp.entries e).packetQueue = []) (h : Unstored p s) :
    wp (takeEntry e) (fun x t => x = e ∧ Taken p e s t) (fun _ _ => True) s := by
  have hother : ∀ v : ArpEntry, ∀ x, x ≠ e → (s.setEntry e v).arp.entries x = s.arp.entries x :=
    fun v x hx => Function.update_of_ne hx _ _
  unfold takeEntry
  simp only [wp_bind, wp_modifyEntry, wp_modify, wp_pure]
  refine ⟨trivial, ?_, ?_, ?_, ?_, ?_, ⟨h.pool, h.tx, h.rx, ?_⟩, [], rfl, by simp⟩
  · simp [hqueue]
  · simp
  · intro x
    by_cases hx : x = e
    · simp [hx]
    · simp [Function.update_of_ne hx]
  · simp
  · intro x hx
    simpa using hx
  · intro x
    by_cases hx : x = e
    · simp [hx, hqueue]
    · simpa [Function.update_of_ne hx] using h.queues x

/-- The first free entry, or the oldest one in use. -/
theorem allocateEntry_takes (h : Unstored p s)
    (hempty : ∀ x rest, s.arp.freeEntries = x :: rest → (s.arp.entries x).packetQueue = []) :
    wp allocateEntry (fun e t => Taken p e s t) (fun _ _ => True) s := by
  unfold allocateEntry
  simp only [wp_bind, wp_get]
  split
  · next x rest hfree =>
    simp only [wp_bind, wp_modify]
    have hstart : Unstored p (s.setEntryLists rest s.arp.usedEntries) := ⟨h.pool, h.tx, h.rx, h.queues⟩
    apply wp_next (takeEntry_takes (s := s.setEntryLists rest s.arp.usedEntries) (hempty x rest hfree) hstart)
    intro y t ht
    obtain ⟨rfl, ht⟩ := ht
    exact ⟨ht.queue, ht.count, ht.ips, ht.taken, ht.used, ht.unstored, ht.trace⟩
  · simp only [wp_bind, wp_get]
    split
    · trivial
    · next x rest hused =>
      obtain ⟨y, hy⟩ := exists_ne x
      have hseen : PassesBy [p] y s (s.observe (.arpEvicted x)) := .observe (h.apart y) _ trivial
      simp only [wp_bind, wp_emit]
      apply wp_partial (wp_and (freeEntry_passesBy hy.symm hseen.apart) (freeEntry_empties x _))
      intro _ t ht
      obtain ⟨hfreed, hqueue⟩ := ht
      have hpassed := hseen.trans hfreed
      apply wp_next (takeEntry_takes hqueue (h.passedBy hpassed))
      intro z u hu
      obtain ⟨rfl, hu⟩ := hu
      obtain ⟨new, htrace, hnew⟩ := hpassed.trace
      obtain ⟨new', htrace', hnew'⟩ := hu.trace
      refine ⟨hu.queue, hu.count, fun w => (hu.ips w).trans (hpassed.ips w), hu.taken, ?_, hu.unstored, new' ++ new,
        by rw [htrace', htrace, List.append_assoc], ?_⟩
      · intro w hw
        cases hu.used w hw with
        | inl hold => exact .inl (hpassed.used w hold)
        | inr hself => exact .inr hself
      · intro event he
        rcases List.mem_append.mp he with hlate | hearly
        · exact hnew' event hlate
        · exact hnew event hearly

/-- The packet waits alone on an entry that no other has the address of. -/
structure Started (ip : Ip) (p : PacketId) (e : ArpEntryId) (t : Stack) : Prop where
  used : e ∈ t.arp.usedEntries
  address : (t.arp.entries e).ip = ip
  only : ∀ x ∈ t.arp.usedEntries, (t.arp.entries x).ip = ip → x = e
  invalid : (t.arp.entries e).containValidMapping = false
  queue : (t.arp.entries e).packetQueue = [p]
  count : (t.arp.entries e).packetCount = 1

/-- The entry with its first packet. -/
def firstWaiting (ip : Ip) (p : PacketId) (e : ArpEntryId) (s : Stack) : Stack :=
  s.setEntry e { s.arp.entries e with
    ip := ip, containValidMapping := false, time := s.time, packetQueue := [p], packetCount := 1 }

theorem firstWaiting_entry (ip : Ip) (p : PacketId) (e : ArpEntryId) (s : Stack) :
    (firstWaiting ip p e s).arp.entries e = { s.arp.entries e with
      ip := ip, containValidMapping := false, time := s.time, packetQueue := [p], packetCount := 1 } :=
  Function.update_self _ _ _

theorem firstWaiting_other (hx : x ≠ e) : (firstWaiting ip p e s).arp.entries x = s.arp.entries x :=
  Function.update_of_ne hx _ _

theorem Taken.started (h : Taken p e s t) (hnone : ∀ x ∈ s.arp.usedEntries, (s.arp.entries x).ip ≠ ip) :
    Started ip p e (firstWaiting ip p e t) := by
  refine ⟨h.taken, by rw [firstWaiting_entry], fun x hx hip => ?_, by rw [firstWaiting_entry],
    by rw [firstWaiting_entry], by rw [firstWaiting_entry]⟩
  by_contra hne
  rw [firstWaiting_other hne, h.ips x] at hip
  cases h.used x hx with
  | inl hold => exact hnone x hold hip
  | inr hself => exact hne hself

theorem Taken.apart (h : Taken p e s t) : Apart [p] e (firstWaiting ip p e t) := by
  have hp := h.unstored.apart e
  refine ⟨hp.pool, hp.tx, hp.rx, fun q hq x hx => ?_⟩
  rw [firstWaiting_other hx]
  exact hp.queues q hq x hx

theorem Started.passedBy (h : Started ip p e s) (ht : PassesBy [p] e s t) : Started ip p e t := by
  obtain ⟨retryCount, time, hentry⟩ := ht.entry
  constructor
  · exact ht.kept h.used
  · rw [ht.ips, h.address]
  · intro x hx hip
    rw [ht.ips x] at hip
    exact h.only x (ht.used x hx) hip
  · rw [hentry, h.invalid]
  · rw [hentry, h.queue]
  · rw [hentry, h.count]

/-- The first packet is put in the queue of the entry that has been taken. -/
theorem addToArpEntryQueue_first {Q : Unit → Stack → Prop} {E : Halt → Stack → Prop}
    (hqueue : (s.arp.entries e).packetQueue = []) (hcount : (s.arp.entries e).packetCount = 0) (ip : Ip) :
    wp (addToArpEntryQueue p e) Q E (s.setEntry e { s.arp.entries e with
        ip := ip, containValidMapping := false, time := s.time }) ↔
      Q () ((firstWaiting ip p e s).observe (.window .arpQueue (s.packets p).index (s.packets p).length 0)) := by
  have hroom : ¬ 0 = arpEntryMaxQueueSize := by decide
  unfold addToArpEntryQueue appendToArpEntryQueue firstWaiting
  simp only [wp_bind, wp_get, wp_ite, wp_modifyEntry, wp_recordWindow, Stack.setEntry_arp_entries, Function.update_self,
    hqueue, hcount, if_neg hroom]
  simp [Stack.setEntry, Function.update_idem]

/-- The first packet for an address opens an entry, and waits in it alone. -/
theorem arpSend_starts (h : Unstored p s) (hnone : entryFor s ip = none)
    (hempty : ∀ x rest, s.arp.freeEntries = x :: rest → (s.arp.entries x).packetQueue = []) :
    wp (arpSend p ip) (fun _ t => ∃ e, Started ip p e t ∧ TurnedBy ip [] [p] (.call p) s t) (fun _ _ => True) s := by
  have hfind : s.arp.usedEntries.find? (fun entry => (s.arp.entries entry).ip = ip) = none := hnone
  have hfresh : ∀ x ∈ s.arp.usedEntries, (s.arp.entries x).ip ≠ ip := by simpa using hfind
  have hcalled : Unstored p (s.observe (.arpSend p ip)) := ⟨h.pool, h.tx, h.rx, h.queues⟩
  unfold arpSend findArpEntry
  simp only [wp_bind, wp_emit, wp_get, wp_pure, Stack.observe_arp, hfind]
  apply wp_next (allocateEntry_takes hcalled hempty)
  intro e u hu
  have hstarted := hu.started hfresh
  have hseen : PassesBy [p] e (firstWaiting ip p e u) ((firstWaiting ip p e u).observe
      (.window .arpQueue (u.packets p).index (u.packets p).length 0)) := .observe hu.apart _ trivial
  simp only [wp_getTime, wp_modifyEntry]
  rw [addToArpEntryQueue_first hu.queue hu.count]
  apply wp_next (sendArpPacket_passesBy hseen.apart _ _ _)
  intro _ t ht
  obtain ⟨new, htrace, hnew⟩ := hu.trace
  have htaken : TurnedBy ip [p] [p] id (s.observe (.arpSend p ip)) (firstWaiting ip p e u) :=
    ⟨new, htrace, .besides hnew⟩
  have hrest := (hseen.trans ht).turned ip
  exact ⟨e, hstarted.passedBy (hseen.trans ht), ((arpSend_turns p ip [] s).trans htaken).trans hrest⟩

/-- A caller of `arp_send`. -/
theorem sendToIp_starts {W : Prop} {U : QueueContent} {limit : ℕ} {bytes : List UInt8} (h : Sound W U limit held s)
    (hnone : entryFor s ip = none)
    (hempty : ∀ x rest, s.arp.freeEntries = x :: rest → (s.arp.entries x).packetQueue = []) :
    wp (sendToIp bytes ip) (fun _ t => ∃ p e, Started ip p e t ∧ TurnedBy ip [] [p] (.call p) s t)
      (fun _ _ => True) s := by
  have hnothing : Apart [] 0 s := ⟨by simp, by simp, by simp, by simp⟩
  unfold sendToIp
  rw [wp_bind]
  have hsound := allocateNetworkPacket_sound h (le_refl _)
  apply wp_partial (wp_and (wp_and hsound (allocateNetworkPacket_passesBy hnothing)) (allocateNetworkPacket_arp s))
  intro p t ht
  obtain ⟨⟨⟨hheld, _⟩, _, hpassed⟩, harp⟩ := ht
  have hp : Unstored p t := hheld.owned.unstored List.mem_cons_self
  simp only [wp_bind, wp_modifyPacket]
  refine wp_next (arpSend_starts ?unstored ?none ?empty) ?started
  case unstored => exact ⟨hp.pool, hp.tx, hp.rx, hp.queues⟩
  case none =>
    rw [entryFor, Stack.write_arp, harp]
    exact hnone
  case empty =>
    rw [Stack.write_arp, harp]
    exact hempty
  case started =>
    intro _ u hu
    obtain ⟨e, hstarted, hturned⟩ := hu
    have hbefore : TurnedBy ip [] [] id s t := hpassed.turned ip
    exact ⟨p, e, hstarted, hbefore.trans hturned⟩

end MiniIp.Invariant
