import MiniIp.Invariant.ArpAllocation
import MiniIp.Invariant.ArpEffects
import MiniIp.Invariant.ArpRequests
import MiniIp.Invariant.SentDatagrams

/-!
# What sends nothing

`Idle s t` says that no frame has been sent and no address learned between `s` and `t`, and that the queues of the ARP table
have at most lost packets. A waiting packet stays as it is because no function writes a packet that another place holds,
which is what ownership says.
-/

set_option autoImplicit false

namespace MiniIp.Invariant

open MiniIp.Source MiniIp.Library.Counting MiniIp.Library.Wp

/-- An entry is valid only if it has been valid, with the same mapping. -/
def KeepsMapping (old new : ArpEntry) : Prop :=
  new.containValidMapping = true → old.containValidMapping = true ∧ new.ip = old.ip ∧ new.mac = old.mac

theorem KeepsMapping.same {old new : ArpEntry} (hvalid : new.containValidMapping = old.containValidMapping)
    (hip : new.ip = old.ip) (hmac : new.mac = old.mac) : KeepsMapping old new := by
  intro hnew
  rw [hvalid] at hnew
  exact ⟨hnew, hip, hmac⟩

/-- Nothing is sent or learned, and what waits has waited before, in its order. -/
structure Idle (s t : Stack) : Prop where
  queues : ∀ e, (t.arp.entries e).packetQueue.Sublist (s.arp.entries e).packetQueue
  waiting : ∀ e, ∀ p ∈ (t.arp.entries e).packetQueue, t.packets p = s.packets p ∧
    (t.arp.entries e).ip = (s.arp.entries e).ip
  frames : sentFrames t.trace = sentFrames s.trace
  past : s.trace <:+ t.trace
  mappings : ∀ e, KeepsMapping (s.arp.entries e) (t.arp.entries e)

variable {U : QueueContent} {limit : ℕ} {held rest : List PacketId} {s t u : Stack} {p q : PacketId} {e e' : ArpEntryId}

namespace Idle

theorem refl (s : Stack) : Idle s s :=
  ⟨fun _ => .refl _, fun _ _ _ => ⟨rfl, rfl⟩, rfl, List.suffix_refl _, fun _ => .same rfl rfl rfl⟩

theorem trans (h : Idle s t) (h' : Idle t u) : Idle s u := by
  refine ⟨fun e => (h'.queues e).trans (h.queues e), fun e p hp => ?_, h'.frames.trans h.frames, h.past.trans h'.past,
    fun e hvalid => ?_⟩
  · obtain ⟨hsame, hip⟩ := h'.waiting e p hp
    obtain ⟨hsame', hip'⟩ := h.waiting e p ((h'.queues e).subset hp)
    exact ⟨hsame.trans hsame', hip.trans hip'⟩
  · obtain ⟨hvalid', hip, hmac⟩ := h'.mappings e hvalid
    obtain ⟨hbefore, hip', hmac'⟩ := h.mappings e hvalid'
    exact ⟨hbefore, hip.trans hip', hmac.trans hmac'⟩

/-- What assigns neither packets nor the ARP table. -/
theorem assign (hpackets : t.packets = s.packets) (harp : t.arp = s.arp) (htrace : t.trace = s.trace) : Idle s t := by
  refine ⟨fun e => ?_, fun e p _ => ?_, ?_, ?_, fun e => ?_⟩
  · rw [harp]
  · rw [hpackets, harp]
    exact ⟨rfl, rfl⟩
  · rw [htrace]
  · rw [htrace]
  · rw [harp]
    exact .same rfl rfl rfl

theorem observe {event : Event} (h : Event.frame event = none) (s : Stack) : Idle s (s.observe event) := by
  have htrace : (s.observe event).trace = [event] ++ s.trace := rfl
  refine ⟨fun _ => .refl _, fun _ _ _ => ⟨rfl, rfl⟩, ?_, ?_, fun _ => .same rfl rfl rfl⟩
  · rw [htrace]
    apply sentFrames_quiet
    simpa using h
  · rw [htrace]
    exact List.suffix_append [event] s.trace

/-- A packet that does not wait is written. -/
theorem write (hnot : ∀ e, p ∉ (s.arp.entries e).packetQueue) (content : NetworkPacket) : Idle s (s.write p content) := by
  refine ⟨fun _ => .refl _, fun e q hq => ⟨?_, rfl⟩, rfl, List.suffix_refl _, fun _ => .same rfl rfl rfl⟩
  have hne : q ≠ p := by
    rintro rfl
    exact hnot e hq
  rw [Stack.write_packets, Function.update_of_ne hne]

/-- An entry loses packets. -/
theorem setEntry {value : ArpEntry} (h : value.packetQueue.Sublist (s.arp.entries e).packetQueue)
    (hip : value.ip = (s.arp.entries e).ip) (hkeeps : KeepsMapping (s.arp.entries e) value) : Idle s (s.setEntry e value) := by
  refine ⟨fun e' => ?_, fun e' q _ => ⟨rfl, ?_⟩, rfl, List.suffix_refl _, fun e' => ?_⟩
  · by_cases he : e' = e
    · subst he
      rwa [Stack.setEntry_arp_entries, Function.update_self]
    · rw [Stack.setEntry_arp_entries, Function.update_of_ne he]
  · by_cases he : e' = e
    · subst he
      rwa [Stack.setEntry_arp_entries, Function.update_self]
    · rw [Stack.setEntry_arp_entries, Function.update_of_ne he]
  · by_cases he : e' = e
    · subst he
      rwa [Stack.setEntry_arp_entries, Function.update_self]
    · rw [Stack.setEntry_arp_entries, Function.update_of_ne he]
      exact .same rfl rfl rfl

/-- What assigns the lists of the entries. -/
theorem lists (free used : List ArpEntryId) : Idle s (s.setEntryLists free used) :=
  ⟨fun _ => .refl _, fun _ _ _ => ⟨rfl, rfl⟩, rfl, List.suffix_refl _, fun _ => .same rfl rfl rfl⟩

/-- The trace grows by events that send nothing. -/
theorem advanced {events : List Event} (h : ∀ event ∈ events, Event.frame event = none) (pool : List PacketId) :
    Idle s (Stack.advanced s pool events) := by
  exact ⟨fun _ => .refl _, fun _ _ _ => ⟨rfl, rfl⟩, sentFrames_quiet h s.trace, List.suffix_append events s.trace,
    fun _ => .same rfl rfl rfl⟩

end Idle

instance : IsTrans Stack Idle := ⟨fun _ _ _ => Idle.trans⟩

/-- A computation that sends nothing. -/
def Idles {α : Type} (x : Net α) : Prop := Leads Idle x

namespace Idles

variable {α β : Type} {x y : Net α} {f : α → Net β}

theorem pure (a : α) : Idles (pure a) := fun s => Idle.refl s

theorem get : Idles get := fun s => Idle.refl s

theorem throw (halt : Halt) : Idles (throw halt : Net α) := Leads.throw halt

theorem bind (hx : Idles x) (hf : ∀ a, Idles (f a)) : Idles (x >>= f) := Leads.bind hx hf

theorem ite {c : Prop} [Decidable c] (hx : Idles x) (hy : Idles y) : Idles (if c then x else y) := Leads.ite hx hy

/-- What assigns neither packets nor the ARP table. -/
theorem assign {g : Stack → Stack} (h : ∀ s, (g s).packets = s.packets ∧ (g s).arp = s.arp ∧ (g s).trace = s.trace) :
    Idles (modify g : Net Unit) := fun s => Idle.assign (h s).1 (h s).2.1 (h s).2.2

theorem emit {event : Event} (h : Event.frame event = none) : Idles (emit event) := fun s => Idle.observe h s

end Idles

theorem freeNetworkPacket_idles (packet : PacketId) : Idles (freeNetworkPacket packet) :=
  Idles.bind (Idles.assign fun _ => ⟨rfl, rfl, rfl⟩) fun _ => .emit rfl

theorem modifyEntry_idles {f : ArpEntry → ArpEntry} (h : ∀ v, (f v).packetQueue = v.packetQueue ∧ (f v).ip = v.ip)
    (hkeeps : ∀ v, KeepsMapping v (f v)) : Idles (modifyEntry e f) := by
  intro s
  obtain ⟨hqueue, hip⟩ := h (s.arp.entries e)
  apply Idle.setEntry _ hip (hkeeps _)
  rw [hqueue]

/-- The oldest packet of an entry has been given back. -/
def dropped (e : ArpEntryId) (p : PacketId) (rest : List PacketId) (s : Stack) : Stack :=
  let popped := s.setEntry e { s.arp.entries e with packetQueue := rest }
  let given := (popped.setPool (p :: s.freeNetworkPackets)).observe (.freed p)
  given.setEntry e { given.arp.entries e with packetCount := (given.arp.entries e).packetCount - 1 }

theorem dropped_idle (h : (s.arp.entries e).packetQueue = p :: rest) : Idle s (dropped e p rest s) := by
  let popped := s.setEntry e { s.arp.entries e with packetQueue := rest }
  have hpopped : Idle s popped := by
    refine Idle.setEntry ?_ rfl (.same rfl rfl rfl)
    rw [h]
    exact List.sublist_cons_self p rest
  have hgiven : Idle popped ((popped.setPool (p :: s.freeNetworkPackets)).observe (.freed p)) := by
    apply Idle.trans (t := popped.setPool (p :: s.freeNetworkPackets))
    · exact Idle.assign rfl rfl rfl
    · exact Idle.observe rfl _
  apply (hpopped.trans hgiven).trans
  exact Idle.setEntry (.refl _) rfl (.same rfl rfl rfl)

/-- The packets that waited are freed, and none is sent. -/
theorem freeEntry_idles (entry : ArpEntryId) : Idles (freeEntry entry) := by
  have hpackets : ∀ packets : List PacketId, ∀ s : Stack, (s.arp.entries entry).packetQueue = packets →
      wp (freeEntryPackets entry packets) (fun _ t => Idle s t) (fun _ _ => True) s := by
    intro packets
    induction packets with
    | nil => exact fun s _ => Idle.refl s
    | cons p rest ih =>
      intro s hqueue
      rw [freeEntryPackets]
      simp only [wp_bind, wp_modifyEntry, wp_freeNetworkPacket]
      have hrest : ((dropped entry p rest s).arp.entries entry).packetQueue = rest := by simp [dropped]
      apply wp_next (ih _ hrest)
      intro _ t ht
      exact (dropped_idle hqueue).trans ht
  intro s
  unfold freeEntry
  simp only [wp_bind, wp_get]
  apply wp_next (hpackets _ s rfl)
  intro _ t ht
  exact ht.trans (Idle.lists _ _)

theorem takeEntry_idles (entry : ArpEntryId) : Idles (takeEntry entry) := by
  have hlists : Idles (modify fun s => s.setEntryLists s.arp.freeEntries (s.arp.usedEntries ++ [entry])) :=
    fun _ => Idle.lists _ _
  have hinvalid : ∀ v : ArpEntry, KeepsMapping v { v with containValidMapping := false, retryCount := 0, packetCount := 0 } := by
    intro v hvalid
    cases hvalid
  exact Idles.bind (modifyEntry_idles (fun _ => ⟨rfl, rfl⟩) hinvalid) fun _ => Idles.bind hlists fun _ => .pure _

/-- An eviction frees what waited in the entry. -/
theorem allocateEntry_idles : Idles allocateEntry := by
  have hlists : ∀ free : List ArpEntryId, Idles (modify fun s => s.setEntryLists free s.arp.usedEntries) :=
    fun _ _ => Idle.lists _ _
  refine Idles.bind .get fun s => ?_
  split
  · exact Idles.bind (hlists _) fun _ => takeEntry_idles _
  · refine Idles.bind .get fun s => ?_
    split
    · exact .throw _
    · exact Idles.bind (Idles.emit rfl) fun _ => Idles.bind (freeEntry_idles _) fun _ => takeEntry_idles _

/-- Nothing leaves when a datagram is put in a queue. -/
theorem udpQueuePacket_idles (connection : UdpConnectionId) (packet : PacketId) : Idles (udpQueuePacket connection packet) := by
  have hassign : ∀ f : UdpConnection → UdpConnection, Idles (modifyConnection connection f) :=
    fun f s => Idle.assign rfl rfl rfl
  have hlimit : Idles (udpLimitQueue connection) := by
    refine Idles.bind .get fun s => Idles.ite ?_ (.pure _)
    split
    · exact .throw _
    · exact Idles.bind (hassign _) fun _ => Idles.bind (freeNetworkPacket_idles _) fun _ => hassign _
  exact Idles.bind (hassign _) fun _ => Idles.bind (fun s => Idle.observe rfl s) fun _ => Idles.bind .get fun _ =>
    Idles.bind (.emit rfl) fun _ => hlimit

/-- A packet of the pool does not wait. -/
theorem Owned.pool_not_queued (h : Owned held s) (hpool : p ∈ s.freeNetworkPackets) (e : ArpEntryId) :
    p ∉ (s.arp.entries e).packetQueue := by
  intro hmem
  have hone := h p
  have hle := member_le_sum (fun e => (s.arp.entries e).packetQueue.count p) e
  have hfree := List.count_pos_iff.mpr hpool
  have hqueued := List.count_pos_iff.mpr hmem
  simp only [occurrences] at hone
  omega

/-- A packet waits on one entry. -/
theorem Owned.one_queue (h : Owned held s) (hp : p ∈ (s.arp.entries e).packetQueue)
    (hp' : p ∈ (s.arp.entries e').packetQueue) : e = e' := by
  by_contra hne
  have hone := h p
  have hsum := sum_update_add s.arp.entries (fun v => v.packetQueue.count p) e { s.arp.entries e with packetQueue := [] }
  have hle := member_le_sum (fun x => (Function.update s.arp.entries e
    { s.arp.entries e with packetQueue := [] } x).packetQueue.count p) e'
  have hfirst := List.count_pos_iff.mpr hp
  have hsecond := List.count_pos_iff.mpr hp'
  simp only [Function.update_of_ne (Ne.symm hne), List.count_nil] at hle hsum
  simp only [occurrences] at hone
  omega

theorem Owned.queue_nodup (h : Owned held s) (e : ArpEntryId) : (s.arp.entries e).packetQueue.Nodup := by
  rw [List.nodup_iff_count_le_one]
  intro q
  have hone := h q
  have hle := member_le_sum (fun e => (s.arp.entries e).packetQueue.count q) e
  simp only [occurrences] at hone
  omega

theorem DeliverFrame.past {arpKept : Prop} (h : DeliverFrame arpKept s t) : s.trace <:+ t.trace := by
  obtain ⟨new, htrace, _⟩ := h.trace
  rw [htrace]
  exact List.suffix_append new s.trace

/-- Nothing waits on an entry that is taken, as long as none has been evicted. -/
theorem allocateEntry_unused (hs : Sound False U limit held s rest) (hp : p ∈ held) :
    wp allocateEntry (fun e t => NoEviction t.trace → (t.arp.entries e).packetQueue = []) (fun _ _ => True) s := by
  by_cases hno : NoEviction s.trace
  · have hempty : ∀ x free, s.arp.freeEntries = x :: free → (s.arp.entries x).packetQueue = [] := by
      intro x free hfree
      apply (hs.table hno).freeEmpty x
      rw [hfree]
      exact List.mem_cons_self
    apply wp_next (allocateEntry_takes (hs.owned.unstored hp) hempty)
    intro e t ht _
    exact ht.queue
  · have hdelivers : Delivers False allocateEntry := allocateEntry_delivers
    apply wp_partial (hdelivers s)
    intro e t ht hno'
    exact absurd (noEviction_suffix hno' ht.past) hno

theorem sendPacketsOnEntry_others (entry : ArpEntryId) (packets : List PacketId) (s : Stack) :
    wp (sendPacketsOnEntry entry packets)
      (fun _ t => s.trace <:+ t.trace ∧ ∀ q, q ∉ packets → t.packets q = s.packets q)
      (fun _ _ => True) s := by
  induction packets generalizing s with
  | nil => exact ⟨List.suffix_refl _, fun _ _ => rfl⟩
  | cons p rest ih =>
    have hdelivers : ∀ mac, Delivers True (macSend p mac etherTypeIpv4) := fun mac => macSend_delivers p mac _
    rw [sendPacketsOnEntry]
    simp only [wp_bind, wp_modifyEntry, wp_get]
    apply wp_partial (wp_and (macSend_sent p _ etherTypeIpv4 _) (hdelivers _ _))
    rintro _ t ⟨hsent, hkept⟩
    apply wp_next (ih t)
    rintro _ u ⟨hpast, hothers⟩
    refine ⟨hkept.past.trans hpast, fun q hq => ?_⟩
    obtain ⟨hne, hrest⟩ := not_or.mp (mt List.mem_cons.mpr hq)
    rw [hothers q hrest, hsent.packets q hne]
    rfl

end MiniIp.Invariant
