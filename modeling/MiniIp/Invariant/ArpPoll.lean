import MiniIp.Invariant.ArpBypass
import MiniIp.Invariant.ArpRequests

/-!
# A poll of the table

What `arp_task` does to one entry. It goes through the entries in use one by one; what it does to the others, also
when it frees them, does not reach this one. No address is on two entries.
-/

set_option autoImplicit false

namespace MiniIp.Invariant

open MiniIp.Source MiniIp.Library.Wp

variable {s t u v : Stack} {e x y : ArpEntryId} {ip : Ip} {packets : List PacketId} {entries before after : List ArpEntryId}

/-- The packets have gone back to the pool one by one. -/
structure QueueFreed (x : ArpEntryId) (packets : List PacketId) (s t : Stack) : Prop where
  free : t.arp.freeEntries = s.arp.freeEntries
  used : t.arp.usedEntries = s.arp.usedEntries
  others : ∀ y, y ≠ x → t.arp.entries y = s.arp.entries y
  address : (t.arp.entries x).ip = (s.arp.entries x).ip
  queue : (t.arp.entries x).packetQueue = []
  time : t.time = s.time
  trace : t.trace = packets.reverse.map Event.freed ++ s.trace

theorem freeEntryPackets_freed (hqueue : (s.arp.entries x).packetQueue = packets) :
    wp (freeEntryPackets x packets) (fun _ t => QueueFreed x packets s t) (fun _ _ => True) s := by
  induction packets generalizing s with
  | nil => exact ⟨rfl, rfl, fun _ _ => rfl, rfl, hqueue, rfl, rfl⟩
  | cons p rest ih =>
    rw [freeEntryPackets]
    simp only [wp_bind, wp_modifyEntry, wp_freeNetworkPacket]
    refine wp_next (ih ?queue) ?freed
    case queue => simp
    case freed =>
      intro _ t ht
      constructor
      · exact ht.free
      · exact ht.used
      · intro y hy
        rw [ht.others y hy]
        simp [Function.update_of_ne hy]
      · rw [ht.address]
        simp
      · exact ht.queue
      · exact ht.time
      · rw [ht.trace]
        simp

/-- The entry is free. -/
structure EntryFreed (x : ArpEntryId) (s t : Stack) : Prop where
  free : t.arp.freeEntries = x :: s.arp.freeEntries
  used : t.arp.usedEntries = s.arp.usedEntries.erase x
  others : ∀ y, y ≠ x → t.arp.entries y = s.arp.entries y
  address : (t.arp.entries x).ip = (s.arp.entries x).ip
  queue : (t.arp.entries x).packetQueue = []
  time : t.time = s.time
  trace : t.trace = (s.arp.entries x).packetQueue.reverse.map Event.freed ++ s.trace

theorem freeEntry_freed (x : ArpEntryId) (s : Stack) :
    wp (freeEntry x) (fun _ t => EntryFreed x s t) (fun _ _ => True) s := by
  unfold freeEntry
  simp only [wp_bind, wp_get]
  apply wp_next (freeEntryPackets_freed rfl)
  intro _ t ht
  rw [wp_modify]
  constructor
  · exact congrArg (x :: ·) ht.free
  · exact congrArg (·.erase x) ht.used
  · exact ht.others
  · exact ht.address
  · exact ht.queue
  · exact ht.time
  · exact ht.trace

theorem EntryFreed.requests (h : EntryFreed x s t) (ip : Ip) : requestsFor ip t.trace = requestsFor ip s.trace := by
  have hnone : ∀ event ∈ (s.arp.entries x).packetQueue.reverse.map Event.freed, Event.frame event = none := by
    intro event he
    obtain ⟨p, _, rfl⟩ := List.mem_map.mp he
    rfl
  rw [requestsFor, h.trace, sentFrames_quiet hnone]
  rfl

theorem EntryFreed.once (h : EntryFreed x s t) (honce : ListedOnce s) (hused : x ∈ s.arp.usedEntries) : ListedOnce t := by
  unfold ListedOnce at honce ⊢
  rw [h.free, h.used]
  have hperm : (x :: s.arp.freeEntries ++ s.arp.usedEntries.erase x).Perm (s.arp.freeEntries ++ s.arp.usedEntries) :=
    (List.perm_middle.symm).trans ((List.perm_cons_erase hused).symm.append_left s.arp.freeEntries)
  exact hperm.nodup_iff.mpr honce

/-- What the task has done to the entries of a list, seen from another one. -/
structure PollsOthers (entries : List ArpEntryId) (e : ArpEntryId) (ip : Ip) (s t : Stack) : Prop where
  past : s.trace <:+ t.trace
  time : t.time = s.time
  entry : t.arp.entries e = s.arp.entries e
  ips : ∀ y, (t.arp.entries y).ip = (s.arp.entries y).ip
  used : ∀ y ∈ t.arp.usedEntries, y ∈ s.arp.usedEntries
  kept : ∀ y, y ∉ entries → y ∈ s.arp.usedEntries → y ∈ t.arp.usedEntries
  free : ∀ y ∈ s.arp.freeEntries, y ∈ t.arp.freeEntries
  once : ListedOnce t
  requests : requestsFor ip t.trace = requestsFor ip s.trace

theorem PollsOthers.refl (h : ListedOnce s) : PollsOthers entries e ip s s :=
  ⟨List.suffix_rfl, rfl, rfl, fun _ => rfl, fun _ => id, fun _ _ => id, fun _ => id, h, rfl⟩

theorem PollsOthers.cons (h : PollsOthers [x] e ip s t) (h' : PollsOthers entries e ip t u) :
    PollsOthers (x :: entries) e ip s u := by
  constructor
  · exact h.past.trans h'.past
  · exact h'.time.trans h.time
  · exact h'.entry.trans h.entry
  · intro y
    exact (h'.ips y).trans (h.ips y)
  · intro y hy
    exact h.used y (h'.used y hy)
  · intro y hy hused
    obtain ⟨hyx, hrest⟩ := List.ne_and_not_mem_of_not_mem_cons hy
    exact h'.kept y hrest (h.kept y (by simpa using hyx) hused)
  · intro y hy
    exact h'.free y (h.free y hy)
  · exact h'.once
  · exact h'.requests.trans h.requests

theorem EntryFreed.pollsOthers (h : EntryFreed x s t) (hx : x ≠ e) (honce : ListedOnce s) (hused : x ∈ s.arp.usedEntries) :
    PollsOthers [x] e ip s t := by
  constructor
  · exact ⟨_, h.trace.symm⟩
  · exact h.time
  · exact h.others e hx.symm
  · intro y
    by_cases hy : y = x
    · rw [hy, h.address]
    · rw [h.others y hy]
  · intro y hy
    rw [h.used] at hy
    exact List.mem_of_mem_erase hy
  · intro y hy hmem
    rw [h.used, List.mem_erase_of_ne (by simpa using hy)]
    exact hmem
  · intro y hy
    rw [h.free]
    exact List.mem_cons_of_mem x hy
  · exact h.once honce hused
  · exact h.requests ip

/-- A request for the entry has been sent, and the time of it noted. -/
def retried (x : ArpEntryId) (now : Time) (s : Stack) : Stack :=
  s.setEntry x { s.arp.entries x with retryCount := (s.arp.entries x).retryCount + 1, time := now }

theorem retried_entry (x : ArpEntryId) (now : Time) (s : Stack) : (retried x now s).arp.entries x =
    { s.arp.entries x with retryCount := (s.arp.entries x).retryCount + 1, time := now } := Function.update_self _ _ _

theorem retried_other (hy : y ≠ x) (now : Time) (s : Stack) : (retried x now s).arp.entries y = s.arp.entries y :=
  Function.update_of_ne hy _ _

theorem retried_ips (now : Time) (y : ArpEntryId) : ((retried x now s).arp.entries y).ip = (s.arp.entries y).ip := by
  by_cases hy : y = x
  · rw [hy, retried_entry]
  · rw [retried_other hy]

theorem arpEntryTask_others (hx : x ≠ e) (honce : ListedOnce s) (hused : x ∈ s.arp.usedEntries)
    (hip : (s.arp.entries x).ip ≠ ip) :
    wp (arpEntryTask x) (fun _ t => PollsOthers [x] e ip s t) (fun _ _ => True) s := by
  have hfreed : wp (freeEntry x) (fun _ t => PollsOthers [x] e ip s t) (fun _ _ => True) s := by
    apply wp_next (freeEntry_freed x s)
    intro _ t ht
    exact ht.pollsOthers hx honce hused
  unfold arpEntryTask
  simp only [wp_bind, wp_get, wp_getTime, wp_ite, wp_pure]
  split
  · split
    · exact hfreed
    · exact .refl honce
  · split
    · split
      · apply wp_next (sendArpPacket_requests zeroMac (s.arp.entries x).ip (.inl rfl) ip s)
        intro _ t ht
        rw [wp_modifyEntry]
        have hstep : ∀ y, y ∈ (retried x s.time t).arp.usedEntries ↔ y ∈ s.arp.usedEntries := by
          intro y
          show y ∈ t.arp.usedEntries ↔ _
          rw [ht.arp]
        constructor
        · exact ht.past
        · exact ht.time
        · exact (retried_other hx.symm s.time t).trans (by rw [ht.arp])
        · intro y
          exact (retried_ips s.time y).trans (by rw [ht.arp])
        · intro y
          exact (hstep y).mp
        · intro y _
          exact (hstep y).mpr
        · intro y hy
          show y ∈ t.arp.freeEntries
          rwa [ht.arp]
        · show (t.arp.freeEntries ++ t.arp.usedEntries).Nodup
          rwa [ht.arp]
        · exact ht.others fun hrequest => hip hrequest.2
      · exact hfreed
    · exact .refl honce

/-- The entries of the list are in use, and not for the address. -/
structure OtherEntries (entries : List ArpEntryId) (e : ArpEntryId) (ip : Ip) (s : Stack) : Prop where
  once : ListedOnce s
  nodup : entries.Nodup
  other : e ∉ entries
  used : ∀ y ∈ entries, y ∈ s.arp.usedEntries
  ips : ∀ y ∈ entries, (s.arp.entries y).ip ≠ ip

/-- The poll of other entries leaves that of the address alone. -/
theorem arpEntriesTask_others (h : OtherEntries entries e ip s) :
    wp (arpEntriesTask entries) (fun _ t => PollsOthers entries e ip s t) (fun _ _ => True) s := by
  induction entries generalizing s with
  | nil => exact .refl h.once
  | cons x rest ih =>
    obtain ⟨hfresh, hrest⟩ := List.nodup_cons.mp h.nodup
    obtain ⟨hx, hother⟩ := List.ne_and_not_mem_of_not_mem_cons h.other
    rw [arpEntriesTask, wp_bind]
    apply wp_next (arpEntryTask_others hx.symm h.once (h.used x List.mem_cons_self) (h.ips x List.mem_cons_self))
    intro _ t ht
    refine wp_next (ih ⟨ht.once, hrest, hother, fun y hy => ?_, fun y hy => ?_⟩) ?_
    · have hyx : y ∉ [x] := by
        rw [List.mem_singleton]
        rintro rfl
        exact hfresh hy
      exact ht.kept y hyx (h.used y (List.mem_cons_of_mem x hy))
    · rw [ht.ips y]
      exact h.ips y (List.mem_cons_of_mem x hy)
    · intro _ u hu
      exact ht.cons hu

/-- `arp_task` is about to send a request, or to give up. -/
def RequestDue (s : Stack) (e : ArpEntryId) : Prop :=
  (s.arp.entries e).containValidMapping = false ∧ getElapsed (s.arp.entries e).time s.time > arpRetryInterval

/-- A request has been sent for the entry. -/
structure RequestSent (e : ArpEntryId) (ip : Ip) (s t : Stack) : Prop where
  arp : t.arp = (retried e s.time s).arp
  time : t.time = s.time
  past : s.trace <:+ t.trace
  requests : (requestsFor ip t.trace).length = (requestsFor ip s.trace).length + 1

/-- What the task does with the entry itself. -/
inductive OwnTask (e : ArpEntryId) (ip : Ip) (s t : Stack) : Prop
  | released (releases : Releases s e) (freed : EntryFreed e s t)
  | retried (calm : ¬ Releases s e) (due : RequestDue s e) (sent : RequestSent e ip s t)
  | idle (calm : ¬ Releases s e) (notDue : ¬ RequestDue s e) (same : t = s)

/-- The entry of the address is released, asked for again, or left alone. -/
theorem arpEntryTask_own (hip : (s.arp.entries e).ip = ip) :
    wp (arpEntryTask e) (fun _ t => OwnTask e ip s t) (fun _ _ => True) s := by
  have hfreed : Releases s e → wp (freeEntry e) (fun _ t => OwnTask e ip s t) (fun _ _ => True) s := by
    intro hreleases
    apply wp_next (freeEntry_freed e s)
    intro _ t ht
    exact .released hreleases ht
  unfold arpEntryTask
  simp only [wp_bind, wp_get, wp_getTime, wp_ite, wp_pure]
  split
  · next hvalid =>
    have hnotDue : ¬ RequestDue s e := fun hdue => absurd (hvalid.symm.trans hdue.1) (by decide)
    split
    · next hlate => exact hfreed (by rwa [Releases, if_pos hvalid])
    · next hearly => exact .idle (by rwa [Releases, if_pos hvalid]) hnotDue rfl
  · next hinvalid =>
    split
    · next hlate =>
      have hdue : RequestDue s e := ⟨Bool.eq_false_iff.mpr hinvalid, hlate⟩
      split
      · next hfew =>
        apply wp_next (sendArpPacket_requests zeroMac (s.arp.entries e).ip (.inl rfl) ip s)
        intro _ t ht
        rw [wp_modifyEntry]
        have hcalm : ¬ Releases s e := by
          rw [Releases, if_neg hinvalid]
          exact fun hreleases => hreleases.2 hfew
        refine .retried hcalm hdue ⟨?_, ht.time, ht.past, ?_⟩
        · show (retried e s.time t).arp = (retried e s.time s).arp
          simp [retried, Stack.setEntry, ht.arp]
        · exact ht.requests.trans (by rw [if_pos ⟨rfl, hip⟩])
      · next hmany => exact hfreed (by rw [Releases, if_neg hinvalid]; exact ⟨hlate, hmany⟩)
    · next hearly =>
      refine .idle ?_ (fun hdue => hearly hdue.2) rfl
      rw [Releases, if_neg hinvalid]
      exact fun hreleases => hearly hreleases.1

/-- The entry has been freed, and every packet that waited on it. -/
structure PollReleases (e : ArpEntryId) (ip : Ip) (s t : Stack) : Prop where
  gone : e ∉ t.arp.usedEntries
  free : e ∈ t.arp.freeEntries
  empty : (t.arp.entries e).packetQueue = []
  returned : ∃ new, t.trace = new ++ s.trace ∧ ∀ q ∈ (s.arp.entries e).packetQueue, .freed q ∈ new
  requests : requestsFor ip t.trace = requestsFor ip s.trace

/-- The entry is still there, with another count and time at most. -/
structure PollKeeps (e : ArpEntryId) (ip : Ip) (retryCount : ℕ) (time : Time) (s t : Stack) : Prop where
  slot : Slot e ip t
  entry : t.arp.entries e = { s.arp.entries e with retryCount := retryCount, time := time }

/-- What a poll does for the address, in the cases of its entry. -/
inductive PollEffect (e : ArpEntryId) (ip : Ip) (s t : Stack) : Prop
  | released (releases : Releases s e) (effect : PollReleases e ip s t)
  | retried (calm : ¬ Releases s e) (due : RequestDue s e)
      (kept : PollKeeps e ip ((s.arp.entries e).retryCount + 1) s.time s t)
      (requests : (requestsFor ip t.trace).length = (requestsFor ip s.trace).length + 1)
  | idle (calm : ¬ Releases s e) (notDue : ¬ RequestDue s e)
      (kept : PollKeeps e ip (s.arp.entries e).retryCount (s.arp.entries e).time s t)
      (requests : requestsFor ip t.trace = requestsFor ip s.trace)

theorem PollEffect.gone_iff (h : PollEffect e ip s t) : e ∉ t.arp.usedEntries ↔ Releases s e := by
  cases h with
  | released releases effect => exact iff_of_true effect.gone releases
  | retried calm _ kept _ => exact iff_of_false (not_not_intro kept.slot.used) calm
  | idle calm _ kept _ => exact iff_of_false (not_not_intro kept.slot.used) calm

theorem PollEffect.releases (h : PollEffect e ip s t) (hgone : e ∉ t.arp.usedEntries) : PollReleases e ip s t := by
  cases h with
  | released _ effect => exact effect
  | retried _ _ kept _ => exact absurd kept.slot.used hgone
  | idle _ _ kept _ => exact absurd kept.slot.used hgone

theorem wp_arpEntriesTask_append {Q : Unit → Stack → Prop} {E : Halt → Stack → Prop} :
    wp (arpEntriesTask (before ++ after)) Q E s ↔
      wp (arpEntriesTask before) (fun _ t => wp (arpEntriesTask after) Q E t) E s := by
  induction before generalizing s with
  | nil => exact Iff.rfl
  | cons x rest ih =>
    simp only [List.cons_append, arpEntriesTask, wp_bind]
    have hrest : (fun (_ : Unit) t => wp (arpEntriesTask (rest ++ after)) Q E t) =
        fun _ t => wp (arpEntriesTask rest) (fun _ u => wp (arpEntriesTask after) Q E u) E t := by
      funext _ t
      exact propext ih
    rw [hrest]

theorem PollsOthers.slot (h : PollsOthers entries e ip s t) (hother : e ∉ entries) (hs : Slot e ip s) : Slot e ip t := by
  refine ⟨h.once, h.kept e hother hs.used, by rw [h.ips, hs.address], fun y hy haddress => ?_⟩
  rw [h.ips y] at haddress
  exact hs.only y (h.used y hy) haddress

/-- The others that are still to come when the entry has had its turn. -/
theorem otherEntries_after (hslot : Slot e ip s) (hused : s.arp.usedEntries = before ++ e :: after)
    (ht : PollsOthers before e ip s t) (honce : ListedOnce u) (hkept : ∀ y, y ≠ e → y ∈ t.arp.usedEntries → y ∈ u.arp.usedEntries)
    (hips : ∀ y, (u.arp.entries y).ip = (t.arp.entries y).ip) : OtherEntries after e ip u := by
  have hnodup : (before ++ e :: after).Nodup := by
    rw [← hused]
    exact (List.nodup_append.mp hslot.once).2.1
  obtain ⟨hbefore, hrest, hdisjoint⟩ := List.nodup_append.mp hnodup
  obtain ⟨hnot, hafter⟩ := List.nodup_cons.mp hrest
  have hmem : ∀ y ∈ after, y ∈ s.arp.usedEntries := by
    intro y hy
    rw [hused]
    exact List.mem_append_right before (List.mem_cons_of_mem e hy)
  have hne : ∀ y ∈ after, y ≠ e := by
    rintro y hy rfl
    exact hnot hy
  refine ⟨honce, hafter, hnot, fun y hy => ?_, fun y hy haddress => ?_⟩
  · apply hkept y (hne y hy)
    refine ht.kept y (fun hearly => ?_) (hmem y hy)
    exact hdisjoint y hearly y (List.mem_cons_of_mem e hy) rfl
  · rw [hips, ht.ips] at haddress
    exact hne y hy (hslot.only y (hmem y hy) haddress)

theorem OwnTask.kept (h : OwnTask e ip t u) (hother : y ≠ e) (hy : y ∈ t.arp.usedEntries) : y ∈ u.arp.usedEntries := by
  cases h with
  | released _ freed =>
    rw [freed.used, List.mem_erase_of_ne hother]
    exact hy
  | retried _ _ sent =>
    rw [sent.arp]
    exact hy
  | idle _ _ same =>
    rw [same]
    exact hy

theorem OwnTask.ips (h : OwnTask e ip t u) (y : ArpEntryId) : (u.arp.entries y).ip = (t.arp.entries y).ip := by
  cases h with
  | released _ freed =>
    by_cases hy : y = e
    · rw [hy, freed.address]
    · rw [freed.others y hy]
  | retried _ _ sent =>
    rw [sent.arp]
    exact retried_ips t.time y
  | idle _ _ same => rw [same]

theorem OwnTask.once (h : OwnTask e ip t u) (hslot : Slot e ip t) : ListedOnce u := by
  cases h with
  | released _ freed => exact freed.once hslot.once hslot.used
  | retried _ _ sent =>
    rw [ListedOnce, sent.arp]
    exact hslot.once
  | idle _ _ same =>
    rw [same]
    exact hslot.once

theorem OwnTask.past (h : OwnTask e ip t u) : t.trace <:+ u.trace ∧ u.time = t.time := by
  cases h with
  | released _ freed => exact ⟨⟨_, freed.trace.symm⟩, freed.time⟩
  | retried _ _ sent => exact ⟨sent.past, sent.time⟩
  | idle _ _ same =>
    rw [same]
    exact ⟨List.suffix_rfl, rfl⟩

theorem releases_congr (hentry : t.arp.entries e = s.arp.entries e) (htime : t.time = s.time) : Releases t e ↔ Releases s e := by
  unfold Releases
  rw [hentry, htime]

theorem requestDue_congr (hentry : t.arp.entries e = s.arp.entries e) (htime : t.time = s.time) :
    RequestDue t e ↔ RequestDue s e := by
  unfold RequestDue
  rw [hentry, htime]

/-- The entry, with those before and those behind it. -/
theorem pollEffect_around (hslot : Slot e ip s) (hbefore : e ∉ before) (hafter : e ∉ after)
    (h : PollsOthers before e ip s t) (hown : OwnTask e ip t u) (h' : PollsOthers after e ip u v) : PollEffect e ip s v := by
  have hslot' : Slot e ip t := h.slot hbefore hslot
  cases hown with
  | released releases freed =>
    have hunused : e ∉ u.arp.usedEntries := by
      rw [freed.used]
      exact (List.nodup_append.mp hslot'.once).2.1.not_mem_erase
    refine .released ((releases_congr h.entry h.time).mp releases) ⟨?_, ?_, ?_, ?_, ?_⟩
    · intro hused
      exact hunused (h'.used e hused)
    · apply h'.free
      rw [freed.free]
      exact List.mem_cons_self
    · rw [h'.entry, freed.queue]
    · obtain ⟨earlier, hearlier⟩ := h.past
      obtain ⟨later, hlater⟩ := h'.past
      refine ⟨later ++ ((t.arp.entries e).packetQueue.reverse.map Event.freed ++ earlier), ?_, ?_⟩
      · rw [List.append_assoc, List.append_assoc, hearlier, ← freed.trace, hlater]
      · intro q hq
        rw [← h.entry] at hq
        have hmem : Event.freed q ∈ (t.arp.entries e).packetQueue.reverse.map Event.freed :=
          List.mem_map_of_mem (List.mem_reverse.mpr hq)
        exact List.mem_append_right later (List.mem_append_left earlier hmem)
    · rw [h'.requests, freed.requests, h.requests]
  | retried calm due sent =>
    have hkept : Slot e ip u := by
      refine ⟨(OwnTask.retried calm due sent).once hslot', ?_, ?_, fun y hy haddress => ?_⟩
      · rw [sent.arp]
        exact hslot'.used
      · rw [sent.arp, retried_ips, hslot'.address]
      · rw [sent.arp, retried_ips] at haddress
        rw [sent.arp] at hy
        exact hslot'.only y hy haddress
    refine .retried (mt (releases_congr h.entry h.time).mpr calm) ((requestDue_congr h.entry h.time).mp due)
      ⟨h'.slot hafter hkept, ?_⟩ ?_
    · rw [h'.entry, sent.arp, retried_entry, h.entry, h.time]
    · rw [h'.requests, sent.requests, h.requests]
  | idle calm notDue same =>
    subst same
    refine .idle (mt (releases_congr h.entry h.time).mpr calm) (mt (requestDue_congr h.entry h.time).mpr notDue)
      ⟨h'.slot hafter hslot', ?_⟩ ?_
    · rw [h'.entry, h.entry]
    · rw [h'.requests, h.requests]

/-- What a poll of the table does to an entry in use. -/
theorem arpTask_effect (h : Slot e ip s) :
    wp arpTask (fun _ v => s.trace <:+ v.trace ∧ v.time = s.time ∧ PollEffect e ip s v) (fun _ _ => True) s := by
  obtain ⟨before, after, hused⟩ := List.append_of_mem h.used
  have hnodup : (before ++ e :: after).Nodup := by
    rw [← hused]
    exact (List.nodup_append.mp h.once).2.1
  obtain ⟨hnodupBefore, hrest, hdisjoint⟩ := List.nodup_append.mp hnodup
  have hbefore : e ∉ before := fun hmem => hdisjoint e hmem e List.mem_cons_self rfl
  have hafter : e ∉ after := (List.nodup_cons.mp hrest).1
  have hothers : OtherEntries before e ip s := by
    have hmem : ∀ y ∈ before, y ∈ s.arp.usedEntries := by
      intro y hy
      rw [hused]
      exact List.mem_append_left _ hy
    refine ⟨h.once, hnodupBefore, hbefore, hmem, fun y hy haddress => hbefore ?_⟩
    rw [← h.only y (hmem y hy) haddress]
    exact hy
  unfold arpTask
  rw [wp_bind, wp_get, hused, wp_arpEntriesTask_append]
  apply wp_next (arpEntriesTask_others hothers)
  intro _ t ht
  rw [arpEntriesTask, wp_bind]
  have hslot := ht.slot hbefore h
  apply wp_next (arpEntryTask_own hslot.address)
  intro _ u hu
  have hbehind : OtherEntries after e ip u := otherEntries_after h hused ht (hu.once hslot)
    (fun y hy hmem => hu.kept hy hmem) (fun y => hu.ips y)
  apply wp_next (arpEntriesTask_others hbehind)
  intro _ v hv
  obtain ⟨hpast, htime⟩ := hu.past
  exact ⟨(ht.past.trans hpast).trans hv.past, hv.time.trans (htime.trans ht.time),
    pollEffect_around h hbefore hafter ht hu hv⟩

/-- Entries have been freed at most. -/
structure Shrinks (s t : Stack) : Prop where
  used : ∀ y ∈ t.arp.usedEntries, y ∈ s.arp.usedEntries
  ips : ∀ y, (t.arp.entries y).ip = (s.arp.entries y).ip

theorem Shrinks.refl (s : Stack) : Shrinks s s := ⟨fun _ => id, fun _ => rfl⟩

theorem Shrinks.trans (h : Shrinks s t) (h' : Shrinks t u) : Shrinks s u := by
  constructor
  · intro y hy
    exact h.used y (h'.used y hy)
  · intro y
    exact (h'.ips y).trans (h.ips y)

theorem arpEntryTask_shrinks (x : ArpEntryId) (s : Stack) :
    wp (arpEntryTask x) (fun _ t => Shrinks s t) (fun _ _ => True) s := by
  apply wp_next (arpEntryTask_own (rfl : (s.arp.entries x).ip = (s.arp.entries x).ip))
  intro _ t ht
  refine ⟨fun y hy => ?_, ht.ips⟩
  cases ht with
  | released _ freed =>
    rw [freed.used] at hy
    exact List.mem_of_mem_erase hy
  | retried _ _ sent =>
    rw [sent.arp] at hy
    exact hy
  | idle _ _ same =>
    rw [same] at hy
    exact hy

theorem arpEntriesTask_shrinks (entries : List ArpEntryId) (s : Stack) :
    wp (arpEntriesTask entries) (fun _ t => Shrinks s t) (fun _ _ => True) s := by
  induction entries generalizing s with
  | nil => exact .refl s
  | cons x rest ih =>
    rw [arpEntriesTask, wp_bind]
    apply wp_next (arpEntryTask_shrinks x s)
    intro _ t ht
    apply wp_next (ih t)
    intro _ u hu
    exact ht.trans hu

/-- A poll may release entries, and takes no new one. -/
theorem arpTask_shrinks (s : Stack) : wp arpTask (fun _ t => Shrinks s t) (fun _ _ => True) s := by
  unfold arpTask
  rw [wp_bind, wp_get]
  exact arpEntriesTask_shrinks s.arp.usedEntries s

/-- The table has the entry because a call of `arp_send` has taken it. -/
theorem touchesTimers_unknown {op : Op} (h : Op.TouchesTimers op) (hunknown : entryFor s ip = none) :
    wp op.exec (fun _ t => entryFor t ip = none) (fun _ _ => True) s := by
  cases op with
  | arpTask =>
    apply wp_next (arpTask_shrinks s)
    intro _ t ht
    rw [entryFor, List.find?_eq_none] at hunknown ⊢
    intro y hy
    rw [ht.ips y]
    exact hunknown y (ht.used y hy)
  | tick now => exact hunknown
  | _ => exact h.elim

end MiniIp.Invariant
