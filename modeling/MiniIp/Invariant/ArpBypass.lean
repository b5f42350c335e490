import MiniIp.Invariant.ArpEffects
import MiniIp.Invariant.ArpLedger
import MiniIp.Invariant.Handover

/-!
# What passes by an entry

Address resolution works on one entry at a time. What it does for the other
entries and for ARP frames leaves the packets that wait on this one where they
are: `Apart` says that they are stored nowhere else, `PassesBy` that a step leaves
them there.
-/

set_option autoImplicit false

namespace MiniIp.Invariant

open MiniIp.Source MiniIp.Library.Wp

/-- `arp_task` is about to free the entry. -/
def Releases (s : Stack) (e : ArpEntryId) : Prop :=
  if (s.arp.entries e).containValidMapping = true then
    getElapsed (s.arp.entries e).time s.time > arpEntryExpirationInterval
  else getElapsed (s.arp.entries e).time s.time > arpRetryInterval ∧ ¬ (s.arp.entries e).retryCount < arpRetryMaxCount

instance (s : Stack) (e : ArpEntryId) : Decidable (Releases s e) :=
  inferInstanceAs (Decidable (if (s.arp.entries e).containValidMapping = true then
      getElapsed (s.arp.entries e).time s.time > arpEntryExpirationInterval
    else getElapsed (s.arp.entries e).time s.time > arpRetryInterval ∧
      ¬ (s.arp.entries e).retryCount < arpRetryMaxCount))

/-- The packets are stored nowhere but in the queue of the entry. -/
structure Apart (queue : List PacketId) (e : ArpEntryId) (s : Stack) : Prop where
  pool : ∀ q ∈ queue, q ∉ s.freeNetworkPackets
  tx : ∀ q ∈ queue, ∀ i, s.gmac.txPackets i ≠ some q
  rx : ∀ q ∈ queue, ∀ i, s.gmac.rxPackets i ≠ some q
  queues : ∀ q ∈ queue, ∀ x, x ≠ e → q ∉ (s.arp.entries x).packetQueue

/-- The step has left the entry and its packets alone, but for the time of its last request. -/
structure PassesBy (queue : List PacketId) (e : ArpEntryId) (s t : Stack) : Prop where
  entry : ∃ retryCount time, t.arp.entries e = { s.arp.entries e with retryCount := retryCount, time := time }
  ips : ∀ x, (t.arp.entries x).ip = (s.arp.entries x).ip
  used : ∀ x ∈ t.arp.usedEntries, x ∈ s.arp.usedEntries
  kept : e ∈ s.arp.usedEntries → e ∈ t.arp.usedEntries
  calm : ¬ Releases s e → ¬ Releases t e
  clock : t.time = s.time
  apart : Apart queue e t
  trace : ∃ new, t.trace = new ++ s.trace ∧ ∀ event ∈ new, Beside queue event

variable {queue packets : List PacketId} {e x : ArpEntryId} {s t u : Stack} {p q : PacketId} {mac : Mac}
  {etherType : UInt16}

theorem PassesBy.refl (h : Apart queue e s) : PassesBy queue e s s :=
  ⟨⟨_, _, rfl⟩, fun _ => rfl, fun _ => id, id, id, rfl, h, [], rfl, by simp⟩

theorem PassesBy.trans (h : PassesBy queue e s t) (h' : PassesBy queue e t u) : PassesBy queue e s u := by
  obtain ⟨retryCount, time, hentry⟩ := h.entry
  obtain ⟨retryCount', time', hentry'⟩ := h'.entry
  obtain ⟨new, htrace, hnew⟩ := h.trace
  obtain ⟨new', htrace', hnew'⟩ := h'.trace
  constructor
  · exact ⟨retryCount', time', by rw [hentry', hentry]⟩
  · intro x
    exact (h'.ips x).trans (h.ips x)
  · intro x hx
    exact h.used x (h'.used x hx)
  · intro hused
    exact h'.kept (h.kept hused)
  · intro hcalm
    exact h'.calm (h.calm hcalm)
  · exact h'.clock.trans h.clock
  · exact h'.apart
  · refine ⟨new' ++ new, by rw [htrace', htrace, List.append_assoc], ?_⟩
    intro event he
    rcases List.mem_append.mp he with hlate | hearly
    · exact hnew' event hlate
    · exact hnew event hearly

/-- The ARP table and the clock are as they were. -/
theorem PassesBy.ofArp (harp : t.arp = s.arp) (htime : t.time = s.time) (hapart : Apart queue e t)
    (htrace : ∃ new, t.trace = new ++ s.trace ∧ ∀ event ∈ new, Beside queue event) : PassesBy queue e s t := by
  refine ⟨⟨(s.arp.entries e).retryCount, (s.arp.entries e).time, ?_⟩, ?_, ?_, ?_, ?_, htime, hapart, htrace⟩
  · rw [harp]
  · intro x
    rw [harp]
  · intro x hx
    rwa [harp] at hx
  · intro hused
    rwa [harp]
  · intro hcalm
    rwa [Releases, harp, htime]

theorem PassesBy.observe (h : Apart queue e s) (event : Event) (hb : Beside queue event) :
    PassesBy queue e s (s.observe event) :=
  .ofArp rfl rfl ⟨h.pool, h.tx, h.rx, h.queues⟩ ⟨[event], rfl, by simpa using hb⟩

/-- The step is one of another entry. -/
theorem PassesBy.setEntry (h : Apart queue e s) (hx : x ≠ e) {v : ArpEntry} (hip : v.ip = (s.arp.entries x).ip)
    (hqueue : ∀ q ∈ v.packetQueue, q ∈ (s.arp.entries x).packetQueue) : PassesBy queue e s (s.setEntry x v) := by
  have hsame : (s.setEntry x v).arp.entries e = s.arp.entries e := Function.update_of_ne hx.symm _ _
  refine ⟨⟨(s.arp.entries e).retryCount, (s.arp.entries e).time, hsame⟩, ?_, fun _ => id, id, ?_, rfl,
    ⟨h.pool, h.tx, h.rx, ?_⟩, [], rfl, by simp⟩
  · intro y
    by_cases hy : y = x
    · rw [hy, Stack.setEntry_arp_entries, Function.update_self, hip]
    · rw [Stack.setEntry_arp_entries, Function.update_of_ne hy]
  · intro hcalm
    rwa [Releases, hsame]
  · intro q hq y hy hmem
    by_cases hyx : y = x
    · rw [hyx, Stack.setEntry_arp_entries, Function.update_self] at hmem
      exact h.queues q hq x hx (hqueue q hmem)
    · rw [Stack.setEntry_arp_entries, Function.update_of_ne hyx] at hmem
      exact h.queues q hq y hy hmem

/-- The step is an assignment to another entry. -/
theorem PassesBy.modified (h : PassesBy queue e s t) (hx : x ≠ e) (f : ArpEntry → ArpEntry)
    (hip : (f (t.arp.entries x)).ip = (t.arp.entries x).ip)
    (hqueue : ∀ q ∈ (f (t.arp.entries x)).packetQueue, q ∈ (t.arp.entries x).packetQueue) :
    PassesBy queue e s (t.setEntry x (f (t.arp.entries x))) :=
  h.trans (PassesBy.setEntry h.apart hx hip hqueue)

/-- The packet goes back to the pool. -/
theorem PassesBy.freed (h : Apart queue e s) (hp : p ∉ queue) :
    PassesBy queue e s ((s.setPool (p :: s.freeNetworkPackets)).observe (.freed p)) := by
  refine .ofArp rfl rfl ⟨fun q hq hmem => ?_, h.tx, h.rx, h.queues⟩ ⟨[.freed p], rfl, by simpa [Beside] using hp⟩
  rcases List.mem_cons.mp hmem with rfl | hold
  · exact hp hq
  · exact h.pool q hq hold

theorem gmacSend_passesBy (h : Apart queue e s) (hp : p ∉ queue) :
    wp (gmacSend p) (fun _ t => PassesBy queue e s t) (fun _ _ => True) s := by
  have hseen : PassesBy queue e s ((s.observe (.window .gmacSend (s.packets p).index (s.packets p).length 0)).observe
      (.gmacSend p (s.packets p).payload)) :=
    .ofArp rfl rfl ⟨h.pool, h.tx, h.rx, h.queues⟩ ⟨[.gmacSend p _, .window .gmacSend _ _ _], rfl, by simp [Beside]⟩
  unfold gmacSend
  simp only [wp_bind, wp_recordWindow, wp_getPacket, wp_emit, wp_get, wp_ite, wp_throw]
  split
  · trivial
  · split
    · exact hseen.trans (PassesBy.freed hseen.apart hp)
    · split
      · trivial
      · next old hslot =>
        have hold : old ∉ queue := fun hmem => h.tx old hmem _ hslot
        simp only [wp_bind, wp_freeNetworkPacket, wp_modify, wp_getPacket]
        have hfreed := hseen.trans (PassesBy.freed hseen.apart hold)
        have hlinked : PassesBy queue e s _ := hfreed
        refine hlinked.trans (.ofArp rfl rfl ?_ ⟨[], rfl, by simp⟩)
        refine ⟨hlinked.apart.pool, fun q hq i hi => ?_, hlinked.apart.rx, hlinked.apart.queues⟩
        by_cases hat : i = s.gmac.txIndex
        · simp [hat] at hi
          exact hp (hi ▸ hq)
        · simp [Function.update_of_ne hat] at hi
          exact h.tx q hq i hi

theorem macSend_passesBy (h : Apart queue e s) (hp : p ∉ queue) :
    wp (macSend p mac etherType) (fun _ t => PassesBy queue e s t) (fun _ _ => True) s := by
  have hhanded : PassesBy queue e s (handedToGmac p mac etherType s) := by
    refine .ofArp rfl rfl ⟨h.pool, h.tx, h.rx, h.queues⟩ ⟨[.macSend p mac etherType, .window .macSend _ _ _], rfl, ?_⟩
    intro event he
    rcases List.mem_cons.mp he with rfl | hwindow
    · exact hp
    · rw [List.mem_singleton.mp hwindow]
      trivial
  unfold wp
  rw [macSend_hands]
  apply wp_next (gmacSend_passesBy hhanded.apart hp)
  intro _ t ht
  exact hhanded.trans ht

theorem allocateNetworkPacket_passesBy (h : Apart queue e s) :
    wp allocateNetworkPacket (fun p t => p ∉ queue ∧ PassesBy queue e s t) (fun _ _ => True) s := by
  unfold allocateNetworkPacket
  simp only [wp_bind, wp_get]
  split
  · trivial
  · next p rest hpool =>
    simp only [wp_bind, wp_modify, wp_modifyPacket, wp_pure]
    have hp : p ∉ queue := fun hmem => h.pool p hmem (by rw [hpool]; exact List.mem_cons_self)
    refine ⟨hp, .ofArp rfl rfl ⟨fun q hq hmem => ?_, h.tx, h.rx, h.queues⟩ ⟨[], rfl, by simp⟩⟩
    exact h.pool q hq (by rw [hpool]; exact List.mem_cons_of_mem _ hmem)

/-- The packet of the request is from the pool, and none that waits. -/
theorem sendArpPacket_passesBy (h : Apart queue e s) (targetMac : Mac) (targetIp : Ip) (arpType : ArpType) :
    wp (sendArpPacket targetMac targetIp arpType) (fun _ t => PassesBy queue e s t) (fun _ _ => True) s := by
  unfold sendArpPacket
  rw [wp_bind]
  apply wp_next (allocateNetworkPacket_passesBy h)
  intro p t ht
  obtain ⟨hp, hkept⟩ := ht
  have hsent : ∀ (targetMac : Mac) (old : NetworkPacket),
      wp (macSend p targetMac etherTypeArp) (fun _ u => PassesBy queue e s u) (fun _ _ => True)
        ((t.observe (.window .sendArpPacket (t.packets p).index (t.packets p).length arpHeaderSize)).write p old) := by
    intro targetMac old
    have hwritten : PassesBy queue e t
        ((t.observe (.window .sendArpPacket (t.packets p).index (t.packets p).length arpHeaderSize)).write p old) :=
      .ofArp rfl rfl ⟨hkept.apart.pool, hkept.apart.tx, hkept.apart.rx, hkept.apart.queues⟩
        ⟨[.window .sendArpPacket _ _ _], rfl, by simp [Beside]⟩
    apply wp_next (macSend_passesBy hwritten.apart hp)
    intro _ u hu
    exact (hkept.trans hwritten).trans hu
  simp only [wp_bind, wp_recordWindow, wp_get, wp_modifyPacket, wp_ite]
  split
  · exact hsent _ _
  · exact hsent _ _

theorem freeEntryPackets_passesBy (hx : x ≠ e) (h : Apart queue e s) (hqueue : (s.arp.entries x).packetQueue = packets) :
    wp (freeEntryPackets x packets) (fun _ t => PassesBy queue e s t) (fun _ _ => True) s := by
  induction packets generalizing s with
  | nil => exact .refl h
  | cons p rest ih =>
    have hp : p ∉ queue := by
      intro hmem
      apply h.queues p hmem x hx
      rw [hqueue]
      exact List.mem_cons_self
    have hpopped := (PassesBy.refl h).modified hx (fun v => { v with packetQueue := rest }) rfl fun q hq => by
      rw [hqueue]
      exact List.mem_cons_of_mem p hq
    have hfreed := hpopped.trans (PassesBy.freed hpopped.apart hp)
    have hcounted := hfreed.modified hx (fun v => { v with packetCount := v.packetCount - 1 }) rfl fun q hq => hq
    rw [freeEntryPackets]
    simp only [wp_bind, wp_modifyEntry, wp_freeNetworkPacket]
    refine wp_next (ih hcounted.apart ?queue) ?left
    case queue => simp
    case left =>
      intro _ t ht
      exact hcounted.trans ht

theorem freeEntry_passesBy (hx : x ≠ e) (h : Apart queue e s) :
    wp (freeEntry x) (fun _ t => PassesBy queue e s t) (fun _ _ => True) s := by
  unfold freeEntry
  simp only [wp_bind, wp_get]
  apply wp_next (freeEntryPackets_passesBy hx h rfl)
  intro _ t ht
  rw [wp_modify]
  refine ht.trans ⟨⟨_, _, rfl⟩, fun _ => rfl, ?_, ?_, id, rfl, ⟨ht.apart.pool, ht.apart.tx, ht.apart.rx, ht.apart.queues⟩,
    [], rfl, by simp⟩
  · intro y hy
    exact List.mem_of_mem_erase hy
  · intro hused
    exact (List.mem_erase_of_ne hx.symm).mpr hused

theorem sendPacketsOnEntry_passesBy (hx : x ≠ e) (h : Apart queue e s)
    (hqueue : (s.arp.entries x).packetQueue = packets) :
    wp (sendPacketsOnEntry x packets) (fun _ t => PassesBy queue e s t) (fun _ _ => True) s := by
  induction packets generalizing s with
  | nil => exact .refl h
  | cons p rest ih =>
    have hp : p ∉ queue := by
      intro hmem
      apply h.queues p hmem x hx
      rw [hqueue]
      exact List.mem_cons_self
    have hpopped := (PassesBy.refl h).modified hx (fun v => { v with packetQueue := rest }) rfl fun q hq => by
      rw [hqueue]
      exact List.mem_cons_of_mem p hq
    rw [sendPacketsOnEntry]
    simp only [wp_bind, wp_modifyEntry, wp_get]
    apply wp_partial (wp_and (macSend_passesBy hpopped.apart hp) (macSend_sent p _ _ _))
    intro _ t ht
    obtain ⟨hsent, hmac⟩ := ht
    have hrest : (t.arp.entries x).packetQueue = rest := by
      rw [hmac.arp]
      simp
    apply wp_next (ih hsent.apart hrest)
    intro _ u hu
    exact (hpopped.trans hsent).trans hu

/-- The mapping is one for another entry, or not one at all. -/
theorem updateArpMapping_passesBy {ip : Ip} (h : Apart queue e s) (hnot : ¬ Unresolved s ip e) :
    wp (updateArpMapping ip mac true) (fun _ t => PassesBy queue e s t) (fun _ _ => True) s := by
  unfold updateArpMapping findArpEntry
  simp only [wp_bind, wp_get, wp_pure]
  split
  · exact .refl h
  · next x hfound =>
    simp only [wp_bind, wp_get, wp_ite, wp_pure, true_and]
    split
    · exact .refl h
    · next hinvalid =>
      have hx : x ≠ e := by
        rintro rfl
        exact hnot ⟨hfound, Bool.eq_false_iff.mpr hinvalid⟩
      have hseen := PassesBy.observe h (.arpMapped ip mac) trivial
      have hmapped := hseen.modified hx (fun v => { v with mac := mac, containValidMapping := true, time := s.time }) rfl
        fun q hq => hq
      simp only [wp_getTime, wp_emit, wp_modifyEntry]
      apply wp_next (sendPacketsOnEntry_passesBy hx hmapped.apart rfl)
      intro _ t ht
      exact hmapped.trans ht

/-- Another request has been sent for the entry. -/
theorem PassesBy.retried (h : Apart queue e s) :
    PassesBy queue e s (s.setEntry e { s.arp.entries e with
      retryCount := (s.arp.entries e).retryCount + 1, time := s.time }) := by
  refine ⟨⟨_, _, Function.update_self _ _ _⟩, ?_, fun _ => id, id, fun _ => ?_, rfl, ⟨h.pool, h.tx, h.rx, ?_⟩, [], rfl,
    by simp⟩
  · intro x
    by_cases hx : x = e
    · rw [hx, Stack.setEntry_arp_entries, Function.update_self]
    · rw [Stack.setEntry_arp_entries, Function.update_of_ne hx]
  · have hnone : getElapsed s.time s.time = 0 := UInt32.sub_self _
    rw [Releases, Stack.setEntry_arp_entries, Function.update_self, Stack.setEntry_time, hnone]
    split
    · decide
    · exact fun hlate => absurd hlate.1 (by decide)
  · intro q hq x hx
    rw [Stack.setEntry_arp_entries, Function.update_of_ne hx]
    exact h.queues q hq x hx

theorem arpEntryTask_passesBy (h : Apart queue e s) (hcalm : ¬ Releases s e) (x : ArpEntryId) :
    wp (arpEntryTask x) (fun _ t => PassesBy queue e s t) (fun _ _ => True) s := by
  unfold arpEntryTask
  simp only [wp_bind, wp_get, wp_getTime, wp_ite, wp_pure]
  by_cases hx : x = e
  · subst hx
    split
    · next hvalid =>
      split
      · next hlate => exact absurd (by rwa [Releases, if_pos hvalid]) hcalm
      · exact .refl h
    · next hinvalid =>
      split
      · next hlate =>
        split
        · next hfew =>
          apply wp_next (sendArpPacket_passesBy h _ _ _)
          intro _ t ht
          have hretried := ht.trans (PassesBy.retried ht.apart)
          rw [ht.clock] at hretried
          exact hretried
        · next hmany => exact absurd (by rw [Releases, if_neg hinvalid]; exact ⟨hlate, hmany⟩) hcalm
      · exact .refl h
  · split
    · split
      · exact freeEntry_passesBy hx h
      · exact .refl h
    · split
      · split
        · apply wp_next (sendArpPacket_passesBy h _ _ _)
          intro _ t ht
          exact ht.modified hx (fun v => { v with retryCount := v.retryCount + 1, time := s.time }) rfl fun q hq => hq
        · exact freeEntry_passesBy hx h
      · exact .refl h

theorem arpEntriesTask_passesBy (h : Apart queue e s) (hcalm : ¬ Releases s e) (entries : List ArpEntryId) :
    wp (arpEntriesTask entries) (fun _ t => PassesBy queue e s t) (fun _ _ => True) s := by
  induction entries generalizing s with
  | nil => exact .refl h
  | cons x rest ih =>
    rw [arpEntriesTask, wp_bind]
    apply wp_next (arpEntryTask_passesBy h hcalm x)
    intro _ t ht
    apply wp_next (ih ht.apart (ht.calm hcalm))
    intro _ u hu
    exact ht.trans hu

/-- A poll that does not release the entry leaves its queue alone. -/
theorem arpTask_passesBy (h : Apart queue e s) (hcalm : ¬ Releases s e) :
    wp arpTask (fun _ t => PassesBy queue e s t) (fun _ _ => True) s := by
  unfold arpTask
  simp only [wp_bind, wp_get]
  exact arpEntriesTask_passesBy h hcalm s.arp.usedEntries

end MiniIp.Invariant
