import MiniIp.Invariant.Frame
import MiniIp.Invariant.SoundSend

/-!
# Address resolution keeps the invariant

First what each kind of assignment to an entry does to the parts of the
invariant, then the functions of the ARP module in the order of the source. The
eviction of an entry from a full table leaves the table behind broken, so from
there on only the part without table and routes is kept.
-/

set_option autoImplicit false

namespace MiniIp.Invariant

open MiniIp.Source MiniIp.Library.Counting MiniIp.Library.Wp

variable {W : Prop} {U : QueueContent} {limit most : ℕ}
  {held held' loose loose' : List PacketId} {s : Stack} {p q : PacketId} {e : ArpEntryId}
  {v : ArpEntry}

/-- An assignment to an entry that leaves the address of an entry in use alone. -/
theorem ArpTable.setEntry (h : ArpTable s.arp)
    (hip : e ∈ s.arp.usedEntries → v.ip = (s.arp.entries e).ip)
    (hempty : e ∈ s.arp.freeEntries → v.packetQueue = []) (hshort : v.packetQueue.length ≤ 2)
    (hwaiting : e ∈ s.arp.usedEntries → v.containValidMapping = false →
      v.packetCount = v.packetQueue.length) : ArpTable (s.setEntry e v).arp where
  nodup := h.nodup
  distinctIps a ha b hb := by
    have hkeep : ∀ c ∈ s.arp.usedEntries,
        ((s.setEntry e v).arp.entries c).ip = (s.arp.entries c).ip := by
      intro c hc
      by_cases hce : c = e
      · simp [hce, hip (hce ▸ hc)]
      · simp [Function.update_of_ne hce]
    rw [hkeep a ha, hkeep b hb]
    exact h.distinctIps a ha b hb
  freeEmpty a ha := by
    by_cases hae : a = e
    · subst hae
      simpa using hempty ha
    · simpa [Function.update_of_ne hae] using h.freeEmpty a ha
  short a := by
    by_cases hae : a = e
    · simpa [hae] using hshort
    · simpa [Function.update_of_ne hae] using h.short a
  waiting a ha := by
    by_cases hae : a = e
    · subst hae
      simpa using hwaiting ha
    · simpa [Function.update_of_ne hae] using h.waiting a ha

theorem Routed.setEntry {trace : List Event} (h : Routed loose s.arp trace)
    (hqueued : ∀ p ∈ v.packetQueue, pending trace p = some v.ip)
    (hother : ∀ p, p ∉ loose' → p ∉ v.packetQueue → p ∉ loose ∧ p ∉ (s.arp.entries e).packetQueue)
    (hmapped : v.containValidMapping = true → .arpMapped v.ip v.mac ∈ trace) :
    Routed loose' (s.setEntry e v).arp trace where
  queued a p hp := by
    by_cases hae : a = e
    · simp only [hae, Stack.setEntry_arp_entries, Function.update_self] at hp ⊢
      exact hqueued p hp
    · simp only [Stack.setEntry_arp_entries, Function.update_of_ne hae] at hp ⊢
      exact h.queued a p hp
  other p hp hnot := by
    have hself := hnot e
    simp only [Stack.setEntry_arp_entries, Function.update_self] at hself
    obtain ⟨hloose, hold⟩ := hother p hp hself
    refine h.other p hloose fun a => ?_
    by_cases hae : a = e
    · exact hae ▸ hold
    · simpa [Function.update_of_ne hae] using hnot a
  mapped a ha := by
    by_cases hae : a = e
    · simp only [hae, Stack.setEntry_arp_entries, Function.update_self] at ha ⊢
      exact hmapped ha
    · simp only [Stack.setEntry_arp_entries, Function.update_of_ne hae] at ha ⊢
      exact h.mapped a ha
  delivered := h.delivered

theorem Base.setEntry (h : Base W U limit held s) (howned : Owned held' (s.setEntry e v))
    (hfits : W → ∀ q ∈ v.packetQueue, Fits 14 (s.packets q))
    (hcounted : v.containValidMapping = false → v.packetCount ≤ v.packetQueue.length)
    (htable : NoEviction s.trace → ArpTable s.arp → ArpTable (s.setEntry e v).arp) :
    Base W U limit held' (s.setEntry e v) where
  owned := howned
  udpContent := h.udpContent
  arpFits w a q hq := by
    by_cases hae : a = e
    · simp only [hae, Stack.setEntry_arp_entries, Function.update_self] at hq
      exact hfits w q hq
    · simp only [Stack.setEntry_arp_entries, Function.update_of_ne hae] at hq
      exact h.arpFits w a q hq
  windows := h.windows
  txSlots := h.txSlots
  rxSlots := h.rxSlots
  arp :=
    { listed := h.arp.listed
      counted := fun a => by
        by_cases hae : a = e
        · simpa [hae] using hcounted
        · simpa [Function.update_of_ne hae] using h.arp.counted a }
  table hne := htable hne (h.table hne)
  udp := h.udp

/-- Moving a packet between an entry's queue and the caller's hands keeps the count. -/
theorem Owned.setEntry (h : Owned held s)
    (hcount : ∀ q, v.packetQueue.count q + held'.count q =
      (s.arp.entries e).packetQueue.count q + held.count q) : Owned held' (s.setEntry e v) := by
  intro q
  have hq := h q
  have hsum := sum_update_add s.arp.entries (fun w => w.packetQueue.count q) e v
  have hmove := hcount q
  simp only [occurrences, Stack.setEntry] at hq ⊢
  omega

/-- The oldest packet of a queue comes into the caller's hands. -/
theorem Base.popped {rest : List PacketId} (h : Base W U limit held s)
    (hqueue : (s.arp.entries e).packetQueue = p :: rest) (hv : v.packetQueue = rest)
    (hip : v.ip = (s.arp.entries e).ip)
    (hcount : v.containValidMapping = false →
      (s.arp.entries e).containValidMapping = false ∧
        v.packetCount = (s.arp.entries e).packetCount - 1) :
    Base W U limit (p :: held) (s.setEntry e v) := by
  refine h.setEntry (h.owned.setEntry fun q => ?_) (fun w q hq => ?_) (fun hvalid => ?_)
    fun hne htable => ?_
  · simp only [hqueue, hv, List.count_cons]
    omega
  · exact h.arpFits w e q (by simp [hqueue, ← hv, hq])
  · obtain ⟨hvalid', hdecrement⟩ := hcount hvalid
    have hbefore := h.arp.counted e hvalid'
    simp only [hqueue, List.length_cons] at hbefore
    rw [hv, hdecrement]
    omega
  · have hshort := htable.short e
    simp only [hqueue, List.length_cons] at hshort
    refine htable.setEntry (fun _ => hip) (fun hfree => ?_) (by rw [hv]; omega) fun hused hvalid => ?_
    · have hnil := htable.freeEmpty e hfree
      simp [hqueue] at hnil
    · obtain ⟨hvalid', hdecrement⟩ := hcount hvalid
      have hbefore := htable.waiting e hused hvalid'
      simp only [hqueue, List.length_cons] at hbefore
      rw [hv, hdecrement]
      omega

theorem Routed.popped {trace : List Event} {rest : List PacketId} (h : Routed loose s.arp trace)
    (hqueue : (s.arp.entries e).packetQueue = p :: rest) (hv : v.packetQueue = rest)
    (hip : v.ip = (s.arp.entries e).ip)
    (hmapped : v.containValidMapping = true →
      (s.arp.entries e).containValidMapping = true ∧ v.mac = (s.arp.entries e).mac) :
    Routed (p :: loose) (s.setEntry e v).arp trace := by
  refine h.setEntry (fun q hq => ?_) (fun q hq hqv => ?_) fun hvalid => ?_
  · rw [hip]
    exact h.queued e q (by simp [hqueue, ← hv, hq])
  · rw [List.mem_cons, not_or] at hq
    rw [hv] at hqv
    exact ⟨hq.2, by simp [hqueue, hq.1, hqv]⟩
  · obtain ⟨hvalid', hmac⟩ := hmapped hvalid
    rw [hip, hmac]
    exact h.mapped e hvalid'

theorem SendFrame.noEviction {arpKept : Prop} {t : Stack} (h : SendFrame arpKept s t)
    (hne : NoEviction t.trace) : NoEviction s.trace := by
  obtain ⟨new, htrace, _⟩ := h.trace
  intro a ha
  exact hne a (by rw [htrace]; exact List.mem_append_right _ ha)

theorem Sound.setEntryLists {free used : List ArpEntryId} (h : Sound W U limit held s loose)
    (hlisted : ∀ a, a ∈ free ∨ a ∈ used)
    (htable : NoEviction s.trace → ArpTable s.arp → ArpTable (s.setEntryLists free used).arp) :
    Sound W U limit held (s.setEntryLists free used) loose where
  owned := h.owned
  udpContent := h.udpContent
  arpFits := h.arpFits
  windows := h.windows
  txSlots := h.txSlots
  rxSlots := h.rxSlots
  arp := ⟨hlisted, h.arp.counted⟩
  table hne := htable hne (h.table hne)
  udp := h.udp
  route hne := ⟨(h.route hne).queued, (h.route hne).other, (h.route hne).mapped,
    (h.route hne).delivered⟩

/-- `free_entry` gives every waiting packet back. -/
theorem freeEntryPackets_sound {packets : List PacketId} (h : Sound W U limit held s loose)
    (hqueue : (s.arp.entries e).packetQueue = packets) :
    wp (freeEntryPackets e packets)
      (fun _ t => Sound W U limit held t loose ∧ (t.arp.entries e).packetQueue = [] ∧
        t.arp.freeEntries = s.arp.freeEntries ∧ t.arp.usedEntries = s.arp.usedEntries ∧
        t.packets = s.packets)
      (Stopped W U limit most) s := by
  induction packets generalizing s with
  | nil => exact ⟨h, hqueue, rfl, rfl, rfl⟩
  | cons p rest ih =>
    simp only [freeEntryPackets, wp_bind, wp_modifyEntry, wp_freeNetworkPacket]
    let v : ArpEntry := { s.arp.entries e with
      packetQueue := rest, packetCount := (s.arp.entries e).packetCount - 1 }
    have hpopped : Sound W U limit (p :: held) (s.setEntry e v) (p :: loose) :=
      ⟨h.toBase.popped hqueue rfl rfl fun hvalid => ⟨hvalid, rfl⟩,
        fun hne => (h.route hne).popped hqueue rfl rfl fun hvalid => ⟨hvalid, rfl⟩⟩
    have hnext := hpopped.released.congr (t := (((s.setEntry e { s.arp.entries e with
        packetQueue := rest }).setPool (p :: s.freeNetworkPackets)).observe (.freed p)).setEntry e v)
      (by simp [stored, Stack.setEntry])
    simpa [Stack.setEntry, v] using ih hnext (by simp [v])

/-- The packets that wait are freed with the entry. -/
theorem freeEntry_sound (h : Sound W U limit held s loose)
    (hused : NoEviction s.trace → e ∈ s.arp.usedEntries) :
    wp (freeEntry e)
      (fun _ t => Sound W U limit held t loose ∧ t.arp.freeEntries = e :: s.arp.freeEntries ∧
        t.arp.usedEntries = s.arp.usedEntries.erase e ∧ t.packets = s.packets)
      (Stopped W U limit most) s := by
  unfold freeEntry
  simp only [wp_bind, wp_get]
  refine wp_next ((freeEntryPackets_delivers e _).sends.run (freeEntryPackets_sound h rfl))
    fun _ t hpost => ?_
  obtain ⟨⟨ht, hempty, hfree, hlist, hpackets⟩, hframe⟩ := hpost
  rw [wp_modify]
  refine ⟨ht.setEntryLists (fun a => ?_) fun hne htable => ?_, by simp [hfree],
    by simp [hlist], hpackets⟩
  · by_cases hae : a = e
    · exact .inl (by simp [hae])
    · rcases ht.arp.listed a with hold | hold
      · exact .inl (List.mem_cons_of_mem _ hold)
      · exact .inr ((List.mem_erase_of_ne hae).mpr hold)
  · have hmem : e ∈ t.arp.usedEntries := hlist ▸ hused (hframe.noEviction hne)
    have hsub : ∀ a ∈ t.arp.usedEntries.erase e, a ∈ t.arp.usedEntries := fun a =>
      List.mem_of_mem_erase
    have hperm : (e :: t.arp.freeEntries ++ t.arp.usedEntries.erase e).Perm
        (t.arp.freeEntries ++ t.arp.usedEntries) :=
      List.perm_middle.symm.trans ((List.perm_cons_erase hmem).symm.append_left _)
    refine ⟨hperm.nodup_iff.mpr htable.nodup, fun a ha b hb => ?_, fun a ha => ?_, htable.short,
      fun a ha => htable.waiting a (hsub a ha)⟩
    · exact htable.distinctIps a (hsub a ha) b (hsub b hb)
    · rcases List.mem_cons.mp ha with rfl | hold
      · exact hempty
      · exact htable.freeEmpty a hold

/-- An entry comes into use for an address that no entry in use has. -/
theorem Sound.taken (h : Sound W U limit held s loose) (free : List ArpEntryId)
    (hlisted : ∀ a, a ∈ free ∨ a ∈ s.arp.usedEntries ++ [e])
    (hqueue : v.packetQueue = (s.arp.entries e).packetQueue)
    (hvalid : v.containValidMapping = false) (hcount : v.packetCount = 0)
    (hnew : NoEviction s.trace → s.arp.freeEntries = e :: free ∧
      ∀ a ∈ s.arp.usedEntries, (s.arp.entries a).ip ≠ v.ip) :
    Sound W U limit held ((s.setEntry e v).setEntryLists free (s.arp.usedEntries ++ [e])) loose := by
  have hfits : W → ∀ q ∈ v.packetQueue, Fits 14 (s.packets q) := by
    intro w q hq
    rw [hqueue] at hq
    exact h.arpFits w e q hq
  have hnil : NoEviction s.trace → v.packetQueue = [] := by
    intro hne
    rw [hqueue]
    exact (h.table hne).freeEmpty e (by simp [(hnew hne).1])
  have hunused : NoEviction s.trace → e ∉ s.arp.usedEntries := by
    intro hne hmem
    have hnodup := (h.table hne).nodup
    rw [(hnew hne).1] at hnodup
    simp [hmem] at hnodup
  have hset : Sound W U limit held (s.setEntry e v) loose := by
    refine ⟨h.toBase.setEntry (h.owned.setEntry fun q => by rw [hqueue]) hfits (fun _ => by omega)
      fun hne htable => ?_, fun hne => ?_⟩
    · exact htable.setEntry (fun hmem => absurd hmem (hunused hne)) (fun _ => hnil hne)
        (by simp [hnil hne]) fun hmem => absurd hmem (hunused hne)
    · exact (h.route hne).setEntry (by simp [hnil hne]) (fun q hq hqv => ⟨hq, hqueue ▸ hqv⟩)
        (by simp [hvalid])
  refine hset.setEntryLists hlisted fun hne htable => ?_
  obtain ⟨hfree, hfresh⟩ := hnew hne
  have hnodup := (h.table hne).nodup
  have hips : ∀ a ∈ s.arp.usedEntries, ((s.setEntry e v).arp.entries a).ip ≠ v.ip := by
    intro a ha
    have hae : a ≠ e := fun heq => hunused hne (heq ▸ ha)
    simpa [Function.update_of_ne hae] using hfresh a ha
  refine ⟨?_, fun a ha b hb hab => ?_, fun a ha => ?_, htable.short, fun a ha hinvalid => ?_⟩
  · rw [hfree] at hnodup
    have hperm : (free ++ (s.arp.usedEntries ++ [e])).Perm (e :: free ++ s.arp.usedEntries) := by
      rw [← List.append_assoc]
      exact List.perm_append_singleton _ _
    exact hperm.nodup_iff.mpr hnodup
  · simp only [Stack.setEntryLists_arp_usedEntries, List.mem_append, List.mem_singleton] at ha hb
    simp only [Stack.setEntryLists_arp_entries] at hab
    rcases ha with ha | rfl
    · rcases hb with hb | rfl
      · exact htable.distinctIps a ha b hb hab
      · exact absurd (hab.trans (by simp)) (hips a ha)
    · rcases hb with hb | rfl
      · exact absurd (hab.symm.trans (by simp)) (hips b hb)
      · rfl
  · exact htable.freeEmpty a (by simp [hfree, show a ∈ free from ha])
  · simp only [Stack.setEntryLists_arp_usedEntries, List.mem_append, List.mem_singleton] at ha
    rcases ha with ha | rfl
    · exact htable.waiting a ha hinvalid
    · simp [hcount, hnil hne]

/-- `allocate_entry`, with the assignment of `arp_send` that gives the entry its address. -/
theorem allocateEntry_sound {ip : Ip} (h : Sound W U limit held s loose)
    (hfresh : NoEviction s.trace → ∀ a ∈ s.arp.usedEntries, (s.arp.entries a).ip ≠ ip) :
    wp allocateEntry
      (fun e t => e ∈ t.arp.usedEntries ∧ t.packets = s.packets ∧
        (NoEviction t.trace → t.trace = s.trace) ∧
        ∀ now, Sound W U limit held (t.setEntry e { t.arp.entries e with
          ip := ip, containValidMapping := false, time := now }) loose)
      (Stopped W U limit most) s := by
  unfold allocateEntry
  simp only [wp_bind, wp_get]
  split
  · next e rest hfree =>
    simp only [takeEntry, wp_bind, wp_modify, wp_modifyEntry, wp_pure]
    refine ⟨by simp, rfl, fun _ => rfl, fun now => ?_⟩
    have htaken := h.taken rest (e := e) (v := { s.arp.entries e with
        containValidMapping := false, retryCount := 0, packetCount := 0, ip := ip, time := now })
      (fun a => ?_) rfl rfl rfl fun hne => ⟨hfree, hfresh hne⟩
    · exact htaken.congr (by simp [stored, Stack.setEntry, Stack.setEntryLists])
    · rcases h.arp.listed a with hold | hold
      · rw [hfree, List.mem_cons] at hold
        rcases hold with rfl | hold
        · exact .inr (by simp)
        · exact .inl hold
      · exact .inr (List.mem_append_left _ hold)
  · next hfree =>
    simp only [wp_bind, wp_get]
    split
    · next hused =>
      have hlisted := h.arp.listed 0
      simp [hfree, hused] at hlisted
    · next e rest hused =>
      simp only [wp_bind, wp_emit]
      have hevicted : ¬ NoEviction (s.observe (.arpEvicted e)).trace := fun hne =>
        hne e List.mem_cons_self
      have hseen : Sound W U limit held (s.observe (.arpEvicted e)) loose :=
        { h with
          windows := fun w event he => by
            rcases List.mem_cons.mp he with rfl | hold
            · trivial
            · exact h.windows w event hold
          table := fun hne => absurd hne hevicted
          route := fun hne => absurd hne hevicted }
      refine wp_next ((freeEntry_delivers e).sends.run (freeEntry_sound hseen fun hne => absurd hne hevicted))
        fun _ t hpost => ?_
      obtain ⟨⟨ht, _, _, hpackets⟩, hframe⟩ := hpost
      simp only [takeEntry, wp_bind, wp_modify, wp_modifyEntry, wp_pure]
      refine ⟨by simp, hpackets, fun hne => absurd (hframe.noEviction hne) hevicted, fun now => ?_⟩
      have htaken := ht.taken t.arp.freeEntries (e := e) (v := { t.arp.entries e with
          containValidMapping := false, retryCount := 0, packetCount := 0, ip := ip, time := now })
        (fun a => ?_) rfl rfl rfl fun hne => absurd (hframe.noEviction hne) hevicted
      · exact htaken.congr (by simp [stored, Stack.setEntry, Stack.setEntryLists])
      · exact (ht.arp.listed a).imp_right (List.mem_append_left _)

/-- The caller's packet joins the queue of the entry for its destination. -/
theorem Sound.appended (h : Sound W U limit (p :: held) s [p]) (hf : W → Fits 14 (s.packets p))
    (hvalid : (s.arp.entries e).containValidMapping = false)
    (hpending : NoEviction s.trace → pending s.trace p = some (s.arp.entries e).ip)
    (hused : NoEviction s.trace → e ∈ s.arp.usedEntries ∧ (s.arp.entries e).packetQueue.length ≤ 1) :
    wp (appendToArpEntryQueue p e) (fun _ t => Sound W U limit held t) (Stopped W U limit most) s := by
  simp only [appendToArpEntryQueue, wp_bind, wp_modifyEntry, wp_recordWindow]
  let v : ArpEntry := { s.arp.entries e with
    packetQueue := (s.arp.entries e).packetQueue ++ [p]
    packetCount := (s.arp.entries e).packetCount + 1 }
  have hlength : v.packetQueue.length = (s.arp.entries e).packetQueue.length + 1 := by simp [v]
  have hqueued : Sound W U limit held (s.setEntry e v) := by
    refine ⟨h.toBase.setEntry (h.owned.setEntry fun q => ?_) (fun w q hq => ?_) (fun _ => ?_)
      fun hne htable => ?_, fun hne => ?_⟩
    · simp only [v, List.count_append, List.count_cons, List.count_nil]
      omega
    · rcases List.mem_append.mp hq with hold | hnew
      · exact h.arpFits w e q hold
      · rw [List.mem_singleton.mp hnew]
        exact hf w
    · have hbefore := h.arp.counted e hvalid
      show (s.arp.entries e).packetCount + 1 ≤ (v.packetQueue.length : Int)
      omega
    · obtain ⟨hmem, hshort⟩ := hused hne
      refine htable.setEntry (fun _ => rfl) (fun hfree => ?_) (by omega) fun _ _ => ?_
      · exact absurd hmem (List.disjoint_of_nodup_append htable.nodup hfree)
      · have hbefore := htable.waiting e hmem hvalid
        show (s.arp.entries e).packetCount + 1 = (v.packetQueue.length : Int)
        omega
    · refine (h.route hne).setEntry (fun q hq => ?_) (fun q _ hq => ?_) fun hmapped => ?_
      · rcases List.mem_append.mp hq with hold | hnew
        · exact (h.route hne).queued e q hold
        · rw [List.mem_singleton.mp hnew]
          exact hpending hne
      · simp only [v, List.mem_append, not_or] at hq
        exact ⟨hq.2, hq.1⟩
      · exact absurd hmapped (by simp [v, hvalid])
  refine hqueued.observe _ trivial fun w => ?_
  exact (hf w).inBuffer (by omega) (hf w).2.1

/-- `add_to_arp_entry_queue`: a full queue gives its oldest packet back first. -/
theorem addToArpEntryQueue_sound (h : Sound W U limit (p :: held) s [p])
    (hf : W → Fits 14 (s.packets p)) (hvalid : (s.arp.entries e).containValidMapping = false)
    (hpending : NoEviction s.trace → pending s.trace p = some (s.arp.entries e).ip)
    (hused : NoEviction s.trace → e ∈ s.arp.usedEntries) :
    wp (addToArpEntryQueue p e) (fun _ t => Sound W U limit held t) (Stopped W U limit most) s := by
  unfold addToArpEntryQueue
  simp only [wp_bind, wp_get, wp_ite]
  split
  · next hfull =>
    split
    · next hqueue =>
      have hcounted := h.arp.counted e hvalid
      simp [hqueue, hfull, arpEntryMaxQueueSize] at hcounted
    · next old rest hqueue =>
      simp only [wp_bind, wp_modifyEntry, wp_freeNetworkPacket]
      let v : ArpEntry := { s.arp.entries e with
        packetQueue := rest, packetCount := (s.arp.entries e).packetCount - 1 }
      have hpopped : Sound W U limit (old :: p :: held) (s.setEntry e v) [old, p] :=
        ⟨h.toBase.popped hqueue rfl rfl fun hinvalid => ⟨hinvalid, rfl⟩,
          fun hne => (h.route hne).popped hqueue rfl rfl fun hmapped => ⟨hmapped, rfl⟩⟩
      have hdrop := hpopped.released.congr (t := (((s.setEntry e { s.arp.entries e with
          packetQueue := rest }).setPool (old :: s.freeNetworkPackets)).observe
            (.freed old)).setEntry e v) (by simp [stored, Stack.setEntry])
      have hne_old : old ≠ p := by
        have hmem : old ∈ (s.arp.entries e).packetQueue := by simp [hqueue]
        exact h.owned.ne_arp List.mem_cons_self e hmem
      suffices happend : wp (appendToArpEntryQueue p e) (fun _ t => Sound W U limit held t)
          (Stopped W U limit most) ((((s.setEntry e { s.arp.entries e with
            packetQueue := rest }).setPool (old :: s.freeNetworkPackets)).observe
              (.freed old)).setEntry e v) by simpa [Stack.setEntry, v] using happend
      refine hdrop.appended hf (by simpa [v] using hvalid) (fun hne => ?_) fun hne => ?_
      · have hne' : NoEviction s.trace := by simpa using hne
        simpa [pending, hne_old, v] using hpending hne'
      · have hne' : NoEviction s.trace := by simpa using hne
        have hshort := (h.table hne').short e
        simp only [hqueue, List.length_cons] at hshort
        exact ⟨hused hne', by simpa [v] using by omega⟩
  · next hroom =>
    refine h.appended hf hvalid hpending fun hne => ⟨hused hne, ?_⟩
    have hshort := (h.table hne).short e
    have hcount := (h.table hne).waiting e (hused hne) hvalid
    simp only [arpEntryMaxQueueSize] at hroom
    omega

/-- The queue of an entry with a fresh mapping is sent to the MAC of the mapping. -/
theorem sendPacketsOnEntry_sound {packets : List PacketId} (h : Sound W U limit held s)
    (hqueue : (s.arp.entries e).packetQueue = packets)
    (hvalid : (s.arp.entries e).containValidMapping = true) :
    wp (sendPacketsOnEntry e packets) (fun _ t => Sound W U limit held t) (Stopped W U limit most) s := by
  induction packets generalizing s with
  | nil => exact h
  | cons p rest ih =>
    simp only [sendPacketsOnEntry, wp_bind, wp_modifyEntry, wp_get, Stack.setEntry_arp_entries,
      Function.update_self]
    let v : ArpEntry := { s.arp.entries e with packetQueue := rest }
    have hbase : Base W U limit (p :: held) (s.setEntry e v) :=
      h.toBase.popped hqueue rfl rfl fun hinvalid => absurd hvalid (by simpa [v] using hinvalid)
    have hfits : W → Fits 14 ((s.setEntry e v).packets p) := fun w =>
      h.arpFits w e p (by simp [hqueue])
    have hsent : wp (macSend p (s.arp.entries e).mac etherTypeIpv4)
        (fun _ t => Sound W U limit held t) (Stopped W U limit most) (s.setEntry e v) := by
      refine macSend_base hbase hfits fun hne => ?_
      have hroute := h.route hne
      refine ⟨hroute.popped hqueue rfl rfl fun _ => ⟨hvalid, rfl⟩, fun _ ip hip => ?_⟩
      have hqueued := hroute.queued e p (by simp [hqueue])
      obtain rfl : (s.arp.entries e).ip = ip := Option.some.inj (hqueued.symm.trans hip)
      exact hroute.mapped e hvalid
    refine wp_next ((macSend_delivers _ _ _ : Delivers True _).sends.run hsent) fun _ t hpost => ?_
    obtain ⟨ht, hframe⟩ := hpost
    have harp := hframe.arp trivial
    exact ih ht (by simp [harp]) (by simp [harp, hvalid])

theorem wp_findArpEntry {Q : Option ArpEntryId → Stack → Prop} {E : Halt → Stack → Prop} {ip : Ip} :
    wp (findArpEntry ip) Q E s ↔
      Q (s.arp.usedEntries.find? fun a => (s.arp.entries a).ip = ip) s := Iff.rfl

/-- From the call of `arp_send` on, the packet is pending. -/
theorem Sound.requested (h : Sound W U limit (p :: held) s) (ip : Ip) :
    Sound W U limit (p :: held) (s.observe (.arpSend p ip)) [p] := by
  refine ⟨h.toBase.observe _ (by simp) fun _ => trivial, fun hne => ?_⟩
  have hroute := h.route (noEviction_cons.mp hne).2
  refine ⟨fun a q hq => ?_, fun q hq hnot => ?_, fun a ha => ?_, hroute.delivered⟩
  · have hqp : p ≠ q := fun heq => h.owned.not_queued List.mem_cons_self a (heq ▸ hq)
    rw [Stack.observe_trace, pending, if_neg hqp]
    exact hroute.queued a q hq
  · have hqp : p ≠ q := fun heq => hq (by simp [heq])
    simpa only [Stack.observe_trace, pending, if_neg hqp] using hroute.other q (by simp) hnot
  · exact List.mem_cons_of_mem _ (hroute.mapped a ha)

/-- `arp_send` sends a held packet, or lets it wait for a mapping. -/
theorem arpSend_sound {ip : Ip} (h : Sound W U limit (p :: held) s)
    (hf : W → Fits 14 (s.packets p)) (hheld : held.length ≤ most) :
    wp (arpSend p ip) (fun _ t => Sound W U limit held t) (Stopped W U limit most) s := by
  have hstart := h.requested ip
  have hpending : pending (s.observe (.arpSend p ip)).trace p = some ip := by simp [pending]
  unfold arpSend
  simp only [wp_bind, wp_emit, wp_findArpEntry]
  split
  · next e hfind =>
    have hip : (s.arp.entries e).ip = ip := by simpa using List.find?_some hfind
    have hmem := List.mem_of_find?_eq_some hfind
    simp only [wp_bind, wp_get, wp_ite, Stack.observe_arp]
    split
    · next hvalid =>
      refine macSend_base hstart.toBase hf fun hne => ⟨hstart.route hne, fun _ ip' hip' => ?_⟩
      obtain rfl : ip = ip' := Option.some.inj (hpending.symm.trans hip')
      exact hip ▸ (hstart.route hne).mapped e hvalid
    · next hinvalid =>
      exact addToArpEntryQueue_sound hstart hf (by simpa using hinvalid)
        (fun _ => by rw [hpending, Stack.observe_arp, hip]) fun _ => hmem
  · next hfind =>
    have hfresh : ∀ a ∈ s.arp.usedEntries, (s.arp.entries a).ip ≠ ip := by
      intro a ha
      have hnone := List.find?_eq_none.mp hfind a ha
      simpa using hnone
    rw [wp_bind]
    refine wp_next (allocateEntry_sound hstart fun _ => hfresh)
      fun e t hpost => ?_
    obtain ⟨hmem, hpackets, htrace, ht⟩ := hpost
    simp only [wp_bind, wp_getTime, wp_modifyEntry]
    have hadd : wp (addToArpEntryQueue p e) (fun _ u => Sound W U limit held u) (Stopped W U limit most)
        (t.setEntry e { t.arp.entries e with
          ip := ip, containValidMapping := false, time := t.time }) := by
      refine addToArpEntryQueue_sound (ht t.time) (fun w => ?_) (by simp) (fun hne => ?_) fun _ => hmem
      · rw [Stack.setEntry_packets, hpackets]
        exact hf w
      · rw [Stack.setEntry_trace, htrace hne, hpending]
        simp
    exact wp_next hadd fun _ u hu => sendArpPacket_sound hu hheld

/-- `update_arp_mapping`, on an entry for the address of the mapping. -/
theorem updateArpMapping_sound {ip : Ip} {mac : Mac} {updateOnlyIfNotValid : Bool}
    (h : Sound W U limit held s) :
    wp (updateArpMapping ip mac updateOnlyIfNotValid) (fun _ t => Sound W U limit held t)
      (Stopped W U limit most) s := by
  unfold updateArpMapping
  simp only [wp_bind, wp_findArpEntry]
  split
  · exact h
  · next e hfind =>
    have hip : (s.arp.entries e).ip = ip := by simpa using List.find?_some hfind
    simp only [wp_bind, wp_get, wp_ite, wp_pure]
    split
    · exact h
    · simp only [wp_getTime, wp_emit, wp_modifyEntry]
      have hseen := h.observe (.arpMapped ip mac) trivial fun _ => trivial
      let v : ArpEntry := { s.arp.entries e with mac := mac, containValidMapping := true, time := s.time }
      have hset : Sound W U limit held ((s.observe (.arpMapped ip mac)).setEntry e v) := by
        refine ⟨hseen.toBase.setEntry (hseen.owned.setEntry fun q => rfl)
          (fun w q hq => h.arpFits w e q hq) (by simp [v]) fun hne htable => ?_, fun hne => ?_⟩
        · exact htable.setEntry (fun _ => rfl) (fun hfree => htable.freeEmpty e hfree)
            (htable.short e) (by simp [v])
        · have hroute := hseen.route hne
          refine hroute.setEntry (fun q hq => hroute.queued e q hq) (fun q hq hqv => ⟨hq, hqv⟩)
            fun _ => ?_
          show Event.arpMapped (s.arp.entries e).ip mac ∈ _
          rw [hip]
          exact List.mem_cons_self
      exact sendPacketsOnEntry_sound hset rfl (by simp)

/-- `handle_arp` gives the received packet back on every path. -/
theorem handleArp_sound (h : Sound W U limit (p :: held) s) (hf : W → Fits 0 (s.packets p))
    (hheld : held.length + 1 ≤ most) :
    wp (handleArp p) (fun _ t => Sound W U limit held t) (Stopped W U limit most) s := by
  unfold handleArp
  simp only [wp_bind, wp_getPacket, wp_ite, wp_recordWindow, wp_get, wp_freeNetworkPacket]
  split
  · exact h.freed
  · next hlength =>
    have hseen : Sound W U limit (p :: held) (s.observe (.window .handleArp (s.packets p).index
        (s.packets p).length arpHeaderSize)) := by
      refine h.observe _ trivial fun w => ?_
      obtain ⟨hindex, hpositive, hend⟩ := hf w
      refine (hf w).inBuffer (by omega) ?_
      have hsize : sizeT (s.packets p).length = (s.packets p).length :=
        Int.emod_eq_of_lt hpositive (by omega)
      omega
    split
    · exact hseen.freed
    · split
      · split
        · exact wp_next (updateArpMapping_sound hseen) fun _ t ht => by simpa using ht.freed
        · simpa using hseen.freed
      · split
        · split
          · exact wp_next (sendArpPacket_sound hseen hheld) fun _ t ht => by simpa using ht.freed
          · simpa using hseen.freed
        · simpa using hseen.freed

/-- One round of `arp_task` takes at most the current entry out of use. -/
theorem arpEntryTask_sound (h : Sound W U limit held s) (hheld : held.length ≤ most)
    (hused : NoEviction s.trace → e ∈ s.arp.usedEntries) :
    wp (arpEntryTask e)
      (fun _ t => Sound W U limit held t ∧ ∀ a ∈ s.arp.usedEntries, a ≠ e → a ∈ t.arp.usedEntries)
      (Stopped W U limit most) s := by
  have hfree : wp (freeEntry e)
      (fun _ t => Sound W U limit held t ∧ ∀ a ∈ s.arp.usedEntries, a ≠ e → a ∈ t.arp.usedEntries)
      (Stopped W U limit most) s := by
    apply wp_next (freeEntry_sound h hused)
    intro _ t hpost
    obtain ⟨ht, _, hlist, _⟩ := hpost
    refine ⟨ht, fun a ha hae => ?_⟩
    rw [hlist]
    exact (List.mem_erase_of_ne hae).mpr ha
  unfold arpEntryTask
  simp only [wp_bind, wp_get, wp_getTime, wp_ite, wp_pure, wp_modifyEntry]
  split
  · split
    · exact hfree
    · exact ⟨h, fun a ha _ => ha⟩
  · split
    · split
      · refine wp_next ((sendArpPacket_delivers _ _ _ : Delivers True _).sends.run
          (sendArpPacket_sound h hheld)) fun _ t hpost => ?_
        obtain ⟨ht, hframe⟩ := hpost
        refine ⟨⟨ht.toBase.setEntry (ht.owned.setEntry fun q => rfl)
          (fun w q hq => ht.arpFits w e q hq) (fun hinvalid => ht.arp.counted e hinvalid)
          fun hne htable => ?_, fun hne => ?_⟩, fun a ha _ => ?_⟩
        · exact htable.setEntry (fun _ => rfl) (fun hmem => htable.freeEmpty e hmem)
            (htable.short e) fun hmem hinvalid => htable.waiting e hmem hinvalid
        · have hroute := ht.route hne
          exact hroute.setEntry (fun q hq => hroute.queued e q hq) (fun q hq hqv => ⟨hq, hqv⟩)
            fun hvalid => hroute.mapped e hvalid
        · rw [Stack.setEntry_arp_usedEntries, hframe.arp trivial]
          exact ha
      · exact hfree
    · exact ⟨h, fun a ha _ => ha⟩

theorem arpEntryTask_delivers (entry : ArpEntryId) : Delivers False (arpEntryTask entry) := by
  refine .bind .get fun s => .bind getTime_delivers fun now => .ite ?_ (.ite ?_ (.pure _))
  · exact .ite (freeEntry_delivers _) (.pure _)
  · exact .ite (.bind (sendArpPacket_delivers _ _ _) fun _ => modifyEntry_delivers _ _) (freeEntry_delivers _)

theorem arpEntriesTask_sound {entries : List ArpEntryId} (h : Sound W U limit held s)
    (hheld : held.length ≤ most)
    (hused : NoEviction s.trace → entries.Nodup ∧ ∀ a ∈ entries, a ∈ s.arp.usedEntries) :
    wp (arpEntriesTask entries) (fun _ t => Sound W U limit held t) (Stopped W U limit most) s := by
  induction entries generalizing s with
  | nil => exact h
  | cons e rest ih =>
    rw [arpEntriesTask, wp_bind]
    refine wp_next ((arpEntryTask_delivers e).sends.run
      (arpEntryTask_sound h hheld fun hne => (hused hne).2 e List.mem_cons_self))
      fun _ t hpost => ?_
    obtain ⟨⟨ht, hkept⟩, hframe⟩ := hpost
    apply ih ht
    intro hne
    obtain ⟨hnodup, hmem⟩ := hused (hframe.noEviction hne)
    obtain ⟨hfresh, hrest⟩ := List.nodup_cons.mp hnodup
    refine ⟨hrest, fun a ha => hkept a (hmem a (List.mem_cons_of_mem _ ha)) fun hae => ?_⟩
    exact hfresh (hae ▸ ha)

/-- The poll of the table. -/
theorem arpTask_sound (h : Sound W U limit held s) (hheld : held.length ≤ most) :
    wp arpTask (fun _ t => Sound W U limit held t) (Stopped W U limit most) s := by
  unfold arpTask
  simp only [wp_bind, wp_get]
  exact arpEntriesTask_sound h hheld fun hne =>
    ⟨(List.nodup_append.mp (h.table hne).nodup).2.1, fun a ha => ha⟩

end MiniIp.Invariant
