import MiniIp.Invariant.ArpBypass
import MiniIp.Invariant.Reception
import MiniIp.Library.DropOldest

/-!
# What an entry does with its packets

The steps of one entry: the packets that wait are passed on when the address is resolved, and a further one is passed
on or waits. Each says how it turns the accounts of the address. The entry and the packets on it are apart from
everything else, as the invariant says (`Apart`).
-/

set_option autoImplicit false

namespace MiniIp.Invariant

open MiniIp.Source MiniIp.Library.DropOldest MiniIp.Library.Wp

variable {queue packets rest : List PacketId} {e x : ArpEntryId} {s t u : Stack} {p q : PacketId} {mac : Mac}
  {etherType : UInt16} {ip : Ip}

/-- The events of the step turn the accounts. -/
def TurnedBy (ip : Ip) (queue queue' : List PacketId) (change : Accounts → Accounts) (s t : Stack) : Prop :=
  ∃ new, t.trace = new ++ s.trace ∧ Turns ip queue queue' change new

theorem TurnedBy.trans {queue' queue'' : List PacketId} {change change' : Accounts → Accounts}
    (h : TurnedBy ip queue queue' change s t) (h' : TurnedBy ip queue' queue'' change' t u) :
    TurnedBy ip queue queue'' (change' ∘ change) s u := by
  obtain ⟨new, htrace, hnew⟩ := h
  obtain ⟨new', htrace', hnew'⟩ := h'
  exact ⟨new' ++ new, by rw [htrace', htrace, List.append_assoc], hnew.trans hnew'⟩

theorem PassesBy.turned (h : PassesBy queue e s t) (ip : Ip) : TurnedBy ip queue queue id s t := by
  obtain ⟨new, htrace, hnew⟩ := h.trace
  exact ⟨new, htrace, .besides hnew⟩

/-- The packet was the first of the queue. -/
theorem macSend_turns (h : Apart rest e s) (hp : p ∉ rest) (mac : Mac) (ip : Ip) :
    wp (macSend p mac etherTypeIpv4)
      (fun _ t => t.arp = s.arp ∧ Apart rest e t ∧ TurnedBy ip (p :: rest) rest (.pass p) s t) (fun _ _ => True) s := by
  have hwindow : Turns ip (p :: rest) (p :: rest) id
      [.window .macSend ((s.packets p).index - macHeaderSize) ((s.packets p).length + macHeaderSize) macHeaderSize] :=
    .besides (by simp [Beside])
  have hhanded : TurnedBy ip (p :: rest) rest (.pass p) s (handedToGmac p mac etherTypeIpv4 s) :=
    ⟨_, rfl, hwindow.trans (.passed hp mac etherTypeIpv4)⟩
  have hapart : Apart rest e (handedToGmac p mac etherTypeIpv4 s) := ⟨h.pool, h.tx, h.rx, h.queues⟩
  have hgmac : wp (macSend p mac etherTypeIpv4) (fun _ t => PassesBy rest e (handedToGmac p mac etherTypeIpv4 s) t)
      (fun _ _ => True) s := by
    unfold wp
    rw [macSend_hands]
    exact gmacSend_passesBy hapart hp
  apply wp_partial (wp_and (macSend_sent p mac etherTypeIpv4 s) hgmac)
  intro _ t ht
  obtain ⟨hsent, hpassed⟩ := ht
  exact ⟨hsent.arp, hpassed.apart, hhanded.trans (hpassed.turned ip)⟩

theorem sendPacketsOnEntry_turns (h : Apart packets e s) (hnodup : packets.Nodup) (ip : Ip) :
    wp (sendPacketsOnEntry e packets) (fun _ t => TurnedBy ip packets [] (.passAll packets) s t) (fun _ _ => True) s := by
  induction packets generalizing s with
  | nil => exact ⟨[], rfl, .besides (by simp)⟩
  | cons p rest ih =>
    obtain ⟨hp, hrest⟩ := List.nodup_cons.mp hnodup
    have hpopped : Apart rest e (s.setEntry e { s.arp.entries e with packetQueue := rest }) := by
      constructor
      · intro q hq
        exact h.pool q (List.mem_cons_of_mem p hq)
      · intro q hq
        exact h.tx q (List.mem_cons_of_mem p hq)
      · intro q hq
        exact h.rx q (List.mem_cons_of_mem p hq)
      · intro q hq x hx
        rw [Stack.setEntry_arp_entries, Function.update_of_ne hx]
        exact h.queues q (List.mem_cons_of_mem p hq) x hx
    rw [sendPacketsOnEntry]
    simp only [wp_bind, wp_modifyEntry, wp_get]
    apply wp_next (macSend_turns hpopped hp _ ip)
    intro _ t ht
    obtain ⟨_, hapart, hfirst⟩ := ht
    apply wp_next (ih hapart hrest)
    intro _ u hu
    obtain ⟨new, htrace, hturns⟩ := hfirst.trans hu
    refine ⟨new, htrace, hturns.waiting, fun past hpast => ?_⟩
    rw [hturns.accounts past hpast]
    simp [Accounts.passAll, Accounts.pass]

/-- All that waits is passed on after the mapping. -/
def FlushedBy (ip : Ip) (queue : List PacketId) (s t : Stack) : Prop :=
  ∃ mac newer older, t.trace = newer ++ .arpMapped ip mac :: (older ++ s.trace) ∧
    (∀ event ∈ older, Beside queue event) ∧ Turns ip queue [] (.passAll queue) newer

/-- The entry has become valid. -/
structure Settled (ip : Ip) (e : ArpEntryId) (s t : Stack) : Prop where
  invalid : (s.arp.entries e).containValidMapping = false
  valid : (t.arp.entries e).containValidMapping = true
  empty : (t.arp.entries e).packetQueue = []
  ips : ∀ x, (t.arp.entries x).ip = (s.arp.entries x).ip
  used : t.arp.usedEntries = s.arp.usedEntries
  flushed : FlushedBy ip (s.arp.entries e).packetQueue s t

theorem updateArpMapping_settles (h : Apart (s.arp.entries e).packetQueue e s)
    (hnodup : (s.arp.entries e).packetQueue.Nodup) (hentry : Unresolved s ip e) (mac : Mac) :
    wp (updateArpMapping ip mac true) (fun _ t => Settled ip e s t) (fun _ _ => True) s := by
  have hapart : Apart (s.arp.entries e).packetQueue e (mapped e ip mac s) := by
    refine ⟨h.pool, h.tx, h.rx, fun q hq x hx => ?_⟩
    rw [mapped_other hx]
    exact h.queues q hq x hx
  have hqueue : ((mapped e ip mac s).arp.entries e).packetQueue = (s.arp.entries e).packetQueue := by
    rw [mapped_entry]
  rw [updateArpMapping_sends hentry]
  apply wp_partial (wp_and (sendPacketsOnEntry_flushes hqueue) (sendPacketsOnEntry_turns hapart hnodup ip))
  intro _ t ht
  obtain ⟨⟨honly, hflushed⟩, new, htrace, hturns⟩ := ht
  obtain ⟨queue', hentry'⟩ := honly.entry
  rw [mapped_entry] at hentry'
  constructor
  · exact hentry.invalid
  · rw [hentry']
  · exact hflushed.queue
  · intro x
    by_cases hx : x = e
    · rw [hx, hentry']
    · rw [honly.others x hx, mapped_other hx]
  · exact honly.used
  · exact ⟨mac, new, [], htrace, by simp, hturns⟩

/-- The frame has passed by the entry or has made it valid. -/
def FrameEffect (ip : Ip) (e : ArpEntryId) (s t : Stack) : Prop :=
  PassesBy (s.arp.entries e).packetQueue e s t ∨ Settled ip e s t

/-- What passes by the entry before the frame is handled. -/
theorem FrameEffect.after (hs : PassesBy (s.arp.entries e).packetQueue e s t)
    (hused : t.arp.usedEntries = s.arp.usedEntries) (h : FrameEffect ip e t u) : FrameEffect ip e s u := by
  obtain ⟨retryCount, time, hentry⟩ := hs.entry
  obtain ⟨new, htrace, hnew⟩ := hs.trace
  have hqueue : (t.arp.entries e).packetQueue = (s.arp.entries e).packetQueue := by rw [hentry]
  cases h with
  | inl hpasses =>
    rw [hqueue] at hpasses
    exact .inl (hs.trans hpasses)
  | inr hsettled =>
    obtain ⟨mac, newer, older, hflushed, holder, hturns⟩ := hsettled.flushed
    rw [hqueue] at holder hturns
    right
    constructor
    · rw [← hsettled.invalid, hentry]
    · exact hsettled.valid
    · exact hsettled.empty
    · intro x
      rw [hsettled.ips x, hs.ips x]
    · rw [hsettled.used, hused]
    · refine ⟨mac, newer, older ++ new, by rw [hflushed, htrace, List.append_assoc], ?_, hturns⟩
      intro event he
      rcases List.mem_append.mp he with hlate | hearly
      · exact holder event hlate
      · exact hnew event hearly

/-- The frame has been given back. -/
theorem FrameEffect.freed (h : FrameEffect ip e s t) (hp : p ∉ (s.arp.entries e).packetQueue) :
    FrameEffect ip e s ((t.setPool (p :: t.freeNetworkPackets)).observe (.freed p)) := by
  cases h with
  | inl hpasses => exact .inl (hpasses.trans (PassesBy.freed hpasses.apart hp))
  | inr hsettled =>
    obtain ⟨mac, newer, older, hflushed, holder, hturns⟩ := hsettled.flushed
    have hgone : Turns ip [] [] id [.freed p] := .besides (by simp [Beside])
    right
    refine ⟨hsettled.invalid, hsettled.valid, hsettled.empty, hsettled.ips, hsettled.used, mac, .freed p :: newer, older,
      ?_, holder, hturns.trans hgone⟩
    rw [Stack.observe_trace, Stack.setPool_trace, hflushed, List.cons_append]

/-- The frame settles the queue of the entry, or leaves it alone. -/
theorem handleArp_effects (h : Apart (s.arp.entries e).packetQueue e s) (hnodup : (s.arp.entries e).packetQueue.Nodup)
    (hp : p ∉ (s.arp.entries e).packetQueue) (hip : (s.arp.entries e).ip = ip) :
    wp (handleArp p) (fun _ t => FrameEffect ip e s t) (fun _ _ => True) s := by
  let seen := s.observe (.window .handleArp (s.packets p).index (s.packets p).length arpHeaderSize)
  have hseen : PassesBy (s.arp.entries e).packetQueue e s seen := .observe h _ trivial
  have hdone : FrameEffect ip e s _ := .inl (hseen.trans (PassesBy.freed hseen.apart hp))
  unfold handleArp
  simp only [wp_bind, wp_getPacket, wp_ite, wp_freeNetworkPacket, wp_recordWindow, wp_get]
  split
  · exact .inl (PassesBy.freed h hp)
  · split
    · exact hdone
    · split
      · split
        · by_cases hentry : Unresolved seen (arpSendersIp (s.packets p)) e
          · have hsender := hentry.ip.symm.trans hip
            subst hsender
            apply wp_next (updateArpMapping_settles (s := seen) hseen.apart hnodup hentry (arpSendersMac (s.packets p)))
            intro _ t ht
            exact (FrameEffect.after hseen rfl (.inr ht)).freed hp
          · apply wp_next (updateArpMapping_passesBy hseen.apart hentry)
            intro _ t ht
            exact FrameEffect.freed (.inl (hseen.trans ht)) hp
        · exact hdone
      · split
        · split
          · apply wp_next (sendArpPacket_passesBy hseen.apart _ _ _)
            intro _ t ht
            exact FrameEffect.freed (.inl (hseen.trans ht)) hp
          · exact hdone
        · exact hdone

/-- The frame that is received next is not an IPv4 frame. -/
def NoDatagram (s : Stack) : Prop := ∀ p t, received s = some (p, t) → ¬ CarriesIp (t.packets p)

theorem allocateNetworkPacket_arp (s : Stack) :
    wp allocateNetworkPacket (fun _ t => t.arp = s.arp) (fun _ _ => True) s := by
  unfold allocateNetworkPacket
  simp only [wp_bind, wp_get]
  split
  · trivial
  · exact rfl

theorem gmacReceive_passesBy (h : Apart queue e s) :
    wp gmacReceive (fun r t => PassesBy queue e s t ∧ t.arp = s.arp ∧ ∀ p, r = some p → p ∉ queue)
      (fun _ _ => True) s := by
  unfold gmacReceive
  simp only [wp_bind, wp_get, wp_ite, wp_pure, wp_modify]
  split
  · exact ⟨.refl h, trivial, by simp⟩
  · split
    · exact ⟨.ofArp rfl rfl ⟨h.pool, h.tx, h.rx, h.queues⟩ ⟨[], rfl, by simp⟩, rfl, by simp⟩
    · split
      · trivial
      · next p hslot =>
        have hp : p ∉ queue := fun hmem => h.rx p hmem _ hslot
        have hwritten : ∀ old, PassesBy queue e s (s.write p old) := fun old =>
          .ofArp rfl rfl ⟨h.pool, h.tx, h.rx, h.queues⟩ ⟨[], rfl, by simp⟩
        simp only [wp_bind, wp_modifyPacket]
        apply wp_partial (wp_and (allocateNetworkPacket_passesBy (hwritten _).apart) (allocateNetworkPacket_arp _))
        intro next t ht
        obtain ⟨⟨hnext, hallocated⟩, harp⟩ := ht
        have hpassed := (hwritten _).trans hallocated
        refine ⟨hpassed.trans (.ofArp rfl rfl ?_ ⟨[], rfl, by simp⟩), harp, ?_⟩
        · refine ⟨hpassed.apart.pool, hpassed.apart.tx, fun q hq i hi => ?_, hpassed.apart.queues⟩
          by_cases hat : i = s.gmac.rxIndex
          · simp [hat] at hi
            exact hnext (hi ▸ hq)
          · simp [Function.update_of_ne hat] at hi
            exact hpassed.apart.rx q hq i hi
        · rintro q hq
          rw [← Option.some.inj hq]
          exact hp

/-- A frame that carries no datagram. -/
theorem handleMac_effects (h : Apart (s.arp.entries e).packetQueue e s) (hnodup : (s.arp.entries e).packetQueue.Nodup)
    (hp : p ∉ (s.arp.entries e).packetQueue) (hip : (s.arp.entries e).ip = ip) (hcarries : ¬ CarriesIp (s.packets p)) :
    wp (handleMac p) (fun _ t => FrameEffect ip e s t) (fun _ _ => True) s := by
  have hother : ¬ readBe16 (s.packets p).data ((s.packets p).index + 12) = etherTypeIpv4 := hcarries
  have hseen : PassesBy (s.arp.entries e).packetQueue e s (macDelivered s p) :=
    .ofArp rfl rfl ⟨h.pool, h.tx, h.rx, h.queues⟩ ⟨[.window .handleMac _ _ _], rfl, by simp [Beside]⟩
  unfold handleMac
  simp only [wp_bind, wp_getPacket, wp_ite, wp_freeNetworkPacket, wp_recordWindow, wp_modifyPacket, if_neg hother]
  split
  · exact .inl (PassesBy.freed h hp)
  · split
    · apply wp_next (handleArp_effects (s := macDelivered s p) hseen.apart hnodup hp hip)
      intro _ t ht
      exact ht.after hseen rfl
    · exact .inl (hseen.trans (PassesBy.freed hseen.apart hp))

/-- The same of the next frame in the ring, where it holds no datagram. -/
theorem receivePacket_effects (h : Apart (s.arp.entries e).packetQueue e s)
    (hnodup : (s.arp.entries e).packetQueue.Nodup) (hip : (s.arp.entries e).ip = ip) (hframe : NoDatagram s) :
    wp receivePacket (fun _ t => FrameEffect ip e s t) (fun _ _ => True) s := by
  unfold receivePacket
  rw [wp_bind]
  apply wp_partial (wp_and (gmacReceive_passesBy h) (wp_self gmacReceive s))
  intro r t ht
  obtain ⟨⟨hpassed, harp, hfresh⟩, hreturned⟩ := ht
  cases r with
  | none => exact .inl hpassed
  | some p =>
    have hqueue : (t.arp.entries e).packetQueue = (s.arp.entries e).packetQueue := by rw [harp]
    have hp : p ∉ (t.arp.entries e).packetQueue := by
      rw [hqueue]
      exact hfresh p rfl
    have hcarries : ¬ CarriesIp (t.packets p) := hframe p t (by rw [received, hreturned])
    have hapart : Apart (t.arp.entries e).packetQueue e t := by
      rw [hqueue]
      exact hpassed.apart
    have hip' : (t.arp.entries e).ip = ip := by rw [harp, hip]
    simp only [wp_bind, wp_pure]
    apply wp_next (handleMac_effects hapart (by rwa [hqueue]) hp hip' hcarries)
    intro _ u hu
    exact hu.after hpassed (by rw [harp])

/-- The packet waits, and the oldest one is given back if there were two. -/
structure Queued (p : PacketId) (e : ArpEntryId) (s t : Stack) : Prop where
  used : t.arp.usedEntries = s.arp.usedEntries
  others : ∀ x, x ≠ e → t.arp.entries x = s.arp.entries x
  entry : t.arp.entries e = { s.arp.entries e with
    packetQueue := keep 2 ((s.arp.entries e).packetQueue ++ [p])
    packetCount := (keep 2 ((s.arp.entries e).packetQueue ++ [p])).length }

/-- The packets are given back, the first of them first. -/
def Accounts.dropAll (packets : List PacketId) (a : Accounts) : Accounts :=
  { a with dropped := packets.reverse ++ a.dropped }

/-- What is too much has been given back. -/
def ShortenedBy (ip : Ip) (packets : List PacketId) (s t : Stack) : Prop :=
  ∃ dropped, packets = dropped ++ keep 2 packets ∧ TurnedBy ip packets (keep 2 packets) (.dropAll dropped) s t

theorem addToArpEntryQueue_queues (hcount : (s.arp.entries e).packetCount = (s.arp.entries e).packetQueue.length)
    (hshort : (s.arp.entries e).packetQueue.length ≤ 2) (hnodup : ((s.arp.entries e).packetQueue ++ [p]).Nodup) (ip : Ip) :
    wp (addToArpEntryQueue p e)
      (fun _ t => Queued p e s t ∧ ShortenedBy ip ((s.arp.entries e).packetQueue ++ [p]) s t) (fun _ _ => True) s := by
  have hlength : ((s.arp.entries e).packetQueue ++ [p]).length = (s.arp.entries e).packetQueue.length + 1 := by simp
  have hwindow : ∀ queue site index length headerSize, Turns ip queue queue id [.window site index length headerSize] :=
    fun queue site index length headerSize => .besides (by simp [Beside])
  unfold addToArpEntryQueue appendToArpEntryQueue
  simp only [wp_bind, wp_get, wp_ite, wp_modifyEntry, wp_recordWindow]
  split
  · next hfull =>
    have htwo : (s.arp.entries e).packetQueue.length = 2 := by
      rw [hfull, arpEntryMaxQueueSize] at hcount
      omega
    cases hqueue : (s.arp.entries e).packetQueue with
    | nil =>
      rw [hqueue] at htwo
      cases htwo
    | cons a rest =>
      rw [hqueue] at htwo hnodup
      have hone : rest.length = 1 := by simpa using htwo
      have hkeep : keep 2 (a :: rest ++ [p]) = rest ++ [p] := by simp [keep, hone]
      have ha : a ∉ rest ++ [p] := (List.nodup_cons.mp hnodup).1
      simp only [wp_bind, wp_modifyEntry, wp_freeNetworkPacket, wp_recordWindow]
      refine ⟨⟨rfl, fun x hx => ?_, ?_⟩, [a], by rw [hkeep]; rfl, ?_⟩
      · simp [Function.update_of_ne hx]
      · rw [hqueue, hkeep]
        simp [hfull, hone, arpEntryMaxQueueSize]
      · rw [hkeep]
        exact ⟨[.window .arpQueue _ _ _, .freed a], rfl, (Turns.freed ha).trans (hwindow _ _ _ _ _)⟩
  · next hfew =>
    have hroom : (s.arp.entries e).packetQueue.length < 2 := by
      rw [hcount, arpEntryMaxQueueSize] at hfew
      omega
    have hkeep : keep 2 ((s.arp.entries e).packetQueue ++ [p]) = (s.arp.entries e).packetQueue ++ [p] := by
      rw [keep, if_neg (by omega)]
    refine ⟨⟨rfl, fun x hx => ?_, ?_⟩, [], by rw [hkeep]; rfl, ?_⟩
    · simp [Function.update_of_ne hx]
    · simp [hkeep, hcount]
    · rw [hkeep]
      exact ⟨[.window .arpQueue _ _ _], rfl, hwindow _ _ _ _ _⟩

/-- The call is noted, and the packet waits from then on. -/
theorem arpSend_turns (p : PacketId) (ip : Ip) (queue : List PacketId) (s : Stack) :
    TurnedBy ip queue (queue ++ [p]) (.call p) s (s.observe (.arpSend p ip)) := ⟨_, rfl, .called p⟩

/-- The entry is valid: the packet is passed on. -/
theorem arpSend_passes (hfound : entryFor s ip = some e) (hvalid : (s.arp.entries e).containValidMapping = true) :
    wp (arpSend p ip) (fun _ t => t.arp = s.arp ∧ TurnedBy ip [] [] (.pass p ∘ .call p) s t) (fun _ _ => True) s := by
  have hfind : s.arp.usedEntries.find? (fun entry => (s.arp.entries entry).ip = ip) = some e := hfound
  have hnone : Apart [] e (s.observe (.arpSend p ip)) := ⟨by simp, by simp, by simp, by simp⟩
  unfold arpSend findArpEntry
  simp only [wp_bind, wp_emit, wp_get, wp_pure, Stack.observe_arp, hfind, wp_ite, if_pos hvalid]
  apply wp_next (macSend_turns hnone (by simp) _ ip)
  intro _ t ht
  exact ⟨ht.1, (arpSend_turns p ip [] s).trans ht.2.2⟩

/-- The entry is not: the packet waits. -/
theorem arpSend_waits (hentry : Unresolved s ip e)
    (hcount : (s.arp.entries e).packetCount = (s.arp.entries e).packetQueue.length)
    (hshort : (s.arp.entries e).packetQueue.length ≤ 2) (hnodup : ((s.arp.entries e).packetQueue ++ [p]).Nodup) :
    wp (arpSend p ip)
      (fun _ t => Queued p e s t ∧ ShortenedBy ip ((s.arp.entries e).packetQueue ++ [p]) (s.observe (.arpSend p ip)) t)
      (fun _ _ => True) s := by
  have hfind : s.arp.usedEntries.find? (fun entry => (s.arp.entries entry).ip = ip) = some e := hentry.found
  have hinvalid : ¬ (s.arp.entries e).containValidMapping = true := by simp [hentry.invalid]
  unfold arpSend findArpEntry
  simp only [wp_bind, wp_emit, wp_get, wp_pure, Stack.observe_arp, hfind, wp_ite, if_neg hinvalid]
  apply wp_next (addToArpEntryQueue_queues (s := s.observe (.arpSend p ip)) hcount hshort hnodup ip)
  intro _ t ht
  obtain ⟨hqueued, hshortened⟩ := ht
  exact ⟨⟨hqueued.used, hqueued.others, hqueued.entry⟩, hshortened⟩

/-- A caller of `arp_send` has a packet that is stored nowhere. -/
theorem sendToIp_calls {bytes : List UInt8} {Q : Unit → Stack → Prop} (h : Apart queue e s)
    (hcall : ∀ p t, p ∉ queue → PassesBy queue e s t → wp (arpSend p ip) Q (fun _ _ => True) t) :
    wp (sendToIp bytes ip) Q (fun _ _ => True) s := by
  unfold sendToIp
  rw [wp_bind]
  apply wp_next (allocateNetworkPacket_passesBy h)
  intro p t ht
  obtain ⟨hp, hpassed⟩ := ht
  have hapart := hpassed.apart
  simp only [wp_bind, wp_modifyPacket]
  refine hcall p _ hp (hpassed.trans ?_)
  exact .ofArp rfl rfl ⟨hapart.pool, hapart.tx, hapart.rx, hapart.queues⟩ ⟨[], rfl, by simp⟩

end MiniIp.Invariant
