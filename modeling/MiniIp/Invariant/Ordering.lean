import MiniIp.Invariant.Departures
import MiniIp.Invariant.WireRun

/-!
# Datagrams leave in order

`InOrder ip given s` says that what has left for `ip`, together with what waits for its MAC address on any one entry
of the table, comes from the datagrams `given`, none twice and in order. Two packets for one address never wait on two
entries, and nothing waits on an entry that is valid, so no packet overtakes another one on its way to one host. This
holds as long as no entry of the table is evicted, and no host owns the broadcast MAC.
-/

set_option autoImplicit false

namespace MiniIp.Invariant

open MiniIp.Source MiniIp.Library.Lanes MiniIp.Library.Wp

/-- What waits on the entry, newest first. -/
def queued (ip : Ip) (s : Stack) (e : ArpEntryId) : List Departure :=
  (s.arp.entries e).packetQueue.reverse.filterMap fun p => departure ip false (s.packets p).payload

/-- What has left for the address, and behind it what waits for it, are datagrams in the order of the calls that sent
them. A valid entry has an empty queue, and its MAC is not the broadcast MAC. -/
structure InOrder (ip : Ip) (given : List Datagram) (s : Stack) : Prop where
  waiting : ∀ e, ∀ p ∈ (s.arp.entries e).packetQueue, 0 ≤ (s.packets p).length ∧
    ((s.arp.entries e).ip ≠ ip → departure ip false (s.packets p).payload = none)
  resolved : ∀ e, (s.arp.entries e).containValidMapping = true →
    (s.arp.entries e).packetQueue = [] ∧ (s.arp.entries e).mac ≠ broadcastMac
  order : ∀ e, Ordered (queued ip s e ++ departures ip s.trace) given

variable {addresses : Ip → Prop} {owner : Ip → Mac → Prop} {U : QueueContent} {limit : ℕ} {held rest : List PacketId}
  {s t u : Stack} {p q : PacketId} {e e' : ArpEntryId} {ip target : Ip} {mac : Mac} {etherType : UInt16}
  {given given' : List Datagram}

theorem queued_slow : ∀ out ∈ queued ip s e, out.toAll = false := by
  intro out hout
  obtain ⟨p, _, hdeparts⟩ := List.mem_filterMap.mp hout
  exact departure_toAll hdeparts

theorem queued_nil (h : (s.arp.entries e).packetQueue = []) : queued ip s e = [] := by
  rw [queued, h]
  rfl

theorem queued_same (hqueue : (t.arp.entries e).packetQueue = (s.arp.entries e).packetQueue)
    (hsame : ∀ p ∈ (t.arp.entries e).packetQueue, t.packets p = s.packets p) : queued ip t e = queued ip s e := by
  rw [queued, queued, ← hqueue]
  apply List.filterMap_congr
  intro p hp
  rw [hsame p (List.mem_reverse.mp hp)]

theorem InOrder.elsewhere (h : InOrder ip given s) (hne : (s.arp.entries e).ip ≠ ip) : queued ip s e = [] := by
  apply List.filterMap_eq_nil_iff.mpr
  intro p hp
  exact (h.waiting e p (List.mem_reverse.mp hp)).2 hne

/-- What waits for the address waits on an entry of the table that is for it. -/
theorem InOrder.used (h : InOrder ip given s) (hbase : ArpBase s.arp) (htable : ArpTable s.arp)
    (hwaits : queued ip s e ≠ []) : (s.arp.entries e).ip = ip ∧ e ∈ s.arp.usedEntries := by
  constructor
  · by_contra hne
    exact hwaits (h.elsewhere hne)
  · rcases hbase.listed e with hfree | hused
    · exact absurd (queued_nil (htable.freeEmpty e hfree)) hwaits
    · exact hused

/-- Nothing for the address waits beside an entry that is for it. -/
theorem InOrder.beside (h : InOrder ip given s) (hbase : ArpBase s.arp) (htable : ArpTable s.arp)
    (hused : e ∈ s.arp.usedEntries) (hip : (s.arp.entries e).ip = ip) (hne : e' ≠ e) : queued ip s e' = [] := by
  by_contra hwaits
  obtain ⟨hip', hused'⟩ := h.used hbase htable hwaits
  exact hne (htable.distinctIps e' hused' e hused (hip'.trans hip.symm))

theorem InOrder.later (h : InOrder ip given s) (hgiven : given <:+ given') : InOrder ip given' s :=
  ⟨h.waiting, h.resolved, fun e => (h.order e).later hgiven⟩

theorem InOrder.idle (h : InOrder ip given s) (hidle : Idle s t) : InOrder ip given t := by
  refine ⟨fun e p hp => ?_, fun e hvalid => ?_, fun e => ?_⟩
  · obtain ⟨hsame, hip⟩ := hidle.waiting e p hp
    rw [hsame, hip]
    exact h.waiting e p ((hidle.queues e).subset hp)
  · obtain ⟨hbefore, _, hmac⟩ := hidle.mappings e hvalid
    obtain ⟨hempty, hother⟩ := h.resolved e hbefore
    refine ⟨List.sublist_nil.mp ?_, ?_⟩
    · rw [← hempty]
      exact hidle.queues e
    · rwa [hmac]
  · have hqueued : queued ip t e = (t.arp.entries e).packetQueue.reverse.filterMap
        fun p => departure ip false (s.packets p).payload := by
      apply List.filterMap_congr
      intro p hp
      rw [(hidle.waiting e p (List.mem_reverse.mp hp)).1]
    have hframes : departures ip t.trace = departures ip s.trace := by rw [departures, departures, hidle.frames]
    rw [hqueued, hframes]
    exact (h.order e).lost ((((hidle.queues e).reverse).filterMap _).append_right _)

theorem InOrder.sent (h : InOrder ip given s) (hnot : ∀ e, p ∉ (s.arp.entries e).packetQueue)
    (hsent : MacSent p mac etherType s t)
    (horder : ∀ e, Ordered (queued ip s e ++
      ((frameDeparture ip (macFramed mac s.ourMac etherType (s.packets p)).payload).toList ++ departures ip s.trace)) given') :
    InOrder ip given' t := by
  have hsame : ∀ e, ∀ q ∈ (s.arp.entries e).packetQueue, t.packets q = s.packets q := by
    intro e q hq
    apply hsent.packets
    rintro rfl
    exact hnot e hq
  refine ⟨fun e q hq => ?_, ?_, fun e => ?_⟩
  · rw [hsent.arp] at hq ⊢
    rw [hsame e q hq]
    exact h.waiting e q hq
  · rw [hsent.arp]
    exact h.resolved
  · have hqueued : queued ip t e = queued ip s e := by
      apply queued_same
      · rw [hsent.arp]
      · rw [hsent.arp]
        exact hsame e
    rw [hqueued, departures_cons hsent.frames]
    exact horder e

/-- A packet of IPv4 is sent to all hosts, or nothing waits for its target. -/
theorem macSend_inOrder (h : InOrder ip given s) (hnot : ∀ e, p ∉ (s.arp.entries e).packetQueue)
    (hlength : 0 ≤ (s.packets p).length) (hjoins : Joins ip target (s.packets p).payload given given')
    (hlane : target = ip → mac = broadcastMac ∨ ∀ e, queued ip s e = []) :
    wp (macSend p mac etherTypeIpv4) (fun _ t => InOrder ip given' t) (fun _ _ => True) s := by
  apply wp_partial (macSend_sent p mac etherTypeIpv4 s)
  intro _ t hsent
  apply h.sent hnot hsent
  intro e
  rw [frameDeparture_ipv4 ip mac s.ourMac hlength]
  apply hjoins.pass (h.order e) queued_slow
  intro hhere
  rcases hlane hhere with hall | hempty
  · exact .inl (decide_eq_true hall)
  · exact .inr (hempty e)

theorem sendArpPacket_inOrder (h : InOrder ip given s) (howned : Owned held s) (targetMac : Mac) (targetIp : Ip)
    (arpType : ArpType) :
    wp (sendArpPacket targetMac targetIp arpType) (fun _ t => InOrder ip given t) (fun _ _ => True) s := by
  apply wp_sendArpPacket howned
  intro q built hbuilt
  have hstart : InOrder ip given built := h.idle hbuilt.idle
  have hlength : 0 ≤ (built.packets q).length := by
    rw [hbuilt.packet]
    exact arpFilled_length _ _ _ _ _
  apply wp_partial (macSend_sent q _ etherTypeArp built)
  intro _ t hsent
  apply hstart.sent hbuilt.apart hsent
  intro e
  rw [frameDeparture_arp ip _ _ hlength]
  exact hstart.order e

theorem appendToArpEntryQueue_inOrder (h : InOrder ip given s) (hinvalid : (s.arp.entries e).containValidMapping = false)
    (hlength : 0 ≤ (s.packets p).length) (hjoins : Joins ip (s.arp.entries e).ip (s.packets p).payload given given') :
    wp (appendToArpEntryQueue p e) (fun _ t => InOrder ip given' t) (fun _ _ => True) s := by
  unfold appendToArpEntryQueue
  simp only [wp_bind, wp_modifyEntry, wp_recordWindow]
  let appended := s.setEntry e { s.arp.entries e with
    packetQueue := (s.arp.entries e).packetQueue ++ [p], packetCount := (s.arp.entries e).packetCount + 1 }
  have happended : InOrder ip given' appended := by
    refine ⟨fun x q hq => ?_, fun x hvalid => ?_, fun x => ?_⟩
    · by_cases hx : x = e
      · subst hx
        simp only [appended, Stack.setEntry_arp_entries, Function.update_self] at hq ⊢
        rcases List.mem_append.mp hq with hold | hnew
        · exact h.waiting x q hold
        · rw [List.mem_singleton.mp hnew]
          exact ⟨hlength, fun hne => hjoins.elsewhere hne⟩
      · simp only [appended, Stack.setEntry_arp_entries, Function.update_of_ne hx] at hq ⊢
        exact h.waiting x q hq
    · by_cases hx : x = e
      · subst hx
        simp only [appended, Stack.setEntry_arp_entries, Function.update_self, hinvalid] at hvalid
        cases hvalid
      · simp only [appended, Stack.setEntry_arp_entries, Function.update_of_ne hx] at hvalid ⊢
        exact h.resolved x hvalid
    · by_cases hx : x = e
      · subst hx
        have hqueued : queued ip appended x = (departure ip false (s.packets p).payload).toList ++ queued ip s x := by
          simp only [queued, appended, Stack.setEntry_arp_entries, Function.update_self, List.reverse_append,
            List.reverse_singleton, List.singleton_append, List.filterMap_cons, Stack.setEntry_packets]
          cases departure ip false (s.packets p).payload with
          | none => rfl
          | some out => rfl
        rw [hqueued, List.append_assoc]
        exact hjoins.push (h.order x)
      · have hqueued : queued ip appended x = queued ip s x := by
          simp only [queued, appended, Stack.setEntry_arp_entries, Function.update_of_ne hx]
          rfl
        rw [hqueued]
        exact (h.order x).later hjoins.later
  exact happended.idle (Idle.observe rfl appended)

theorem addToArpEntryQueue_inOrder (h : InOrder ip given s) (hinvalid : (s.arp.entries e).containValidMapping = false)
    (hlength : 0 ≤ (s.packets p).length) (hjoins : Joins ip (s.arp.entries e).ip (s.packets p).payload given given') :
    wp (addToArpEntryQueue p e) (fun _ t => InOrder ip given' t) (fun _ _ => True) s := by
  unfold addToArpEntryQueue
  simp only [wp_bind, wp_get, wp_ite]
  split
  · split
    · trivial
    · next old rest hqueue =>
      simp only [wp_bind, wp_modifyEntry, wp_freeNetworkPacket]
      have hentry : ((dropped e old rest s).arp.entries e).ip = (s.arp.entries e).ip ∧
          ((dropped e old rest s).arp.entries e).containValidMapping = false := by simp [dropped, hinvalid]
      apply appendToArpEntryQueue_inOrder (s := dropped e old rest s) (h.idle (dropped_idle hqueue)) hentry.2 hlength
      rw [hentry.1]
      exact hjoins
  · exact appendToArpEntryQueue_inOrder h hinvalid hlength hjoins

/-- An entry on which nothing waits is given an address. -/
theorem InOrder.addressed (h : InOrder ip given s) (hempty : (s.arp.entries e).packetQueue = []) (time : Time) :
    InOrder ip given (s.setEntry e { s.arp.entries e with ip := target, containValidMapping := false, time := time }) := by
  refine ⟨fun x q hq => ?_, fun x hvalid => ?_, fun x => ?_⟩
  · by_cases hx : x = e
    · subst hx
      rw [Stack.setEntry_arp_entries, Function.update_self, hempty] at hq
      exact absurd hq List.not_mem_nil
    · simp only [Stack.setEntry_arp_entries, Function.update_of_ne hx] at hq ⊢
      exact h.waiting x q hq
  · by_cases hx : x = e
    · subst hx
      rw [Stack.setEntry_arp_entries, Function.update_self] at hvalid
      cases hvalid
    · simp only [Stack.setEntry_arp_entries, Function.update_of_ne hx] at hvalid ⊢
      exact h.resolved x hvalid
  · have hqueued : queued ip (s.setEntry e { s.arp.entries e with
        ip := target, containValidMapping := false, time := time }) x = queued ip s x := by
      apply queued_same
      · by_cases hx : x = e
        · subst hx
          rw [Stack.setEntry_arp_entries, Function.update_self]
        · rw [Stack.setEntry_arp_entries, Function.update_of_ne hx]
      · exact fun _ _ => rfl
    rw [hqueued]
    exact h.order x

theorem wp_always {α : Type} {x : Net α} {Q : Stack → Prop} (h : wp x (fun _ t => Q t) (fun _ _ => True) s) :
    wp x (fun _ t => NoEviction t.trace → Q t) (fun _ _ => True) s := by
  apply wp_next h
  intro _ t ht _
  exact ht

/-- It is enough to look at runs in which nothing has been evicted before. -/
theorem wp_unevicted {α : Type} {x : Net α} {Q : Stack → Prop} (hx : Delivers False x)
    (h : NoEviction s.trace → wp x (fun _ t => Q t) (fun _ _ => True) s) :
    wp x (fun _ t => NoEviction t.trace → Q t) (fun _ _ => True) s := by
  by_cases hno : NoEviction s.trace
  · exact wp_always (h hno)
  · apply wp_partial (hx s)
    intro _ t ht hno'
    exact absurd (noEviction_suffix hno' ht.past) hno

/-- The packet leaves at once where the entry is valid, and its queue is empty then. Else it joins the queue. No entry
has been evicted. -/
theorem arpSend_inOrder (hs : Sound False U limit (p :: held) s) (h : InOrder ip given s) (hno : NoEviction s.trace)
    (hlength : 0 ≤ (s.packets p).length) (hjoins : Joins ip target (s.packets p).payload given given') :
    wp (arpSend p target) (fun _ t => NoEviction t.trace → InOrder ip given' t) (fun _ _ => True) s := by
  have hstart := hs.requested target
  have hpending : pending (s.observe (.arpSend p target)).trace p = some target := by simp [pending]
  have hseen : InOrder ip given (s.observe (.arpSend p target)) := h.idle (Idle.observe rfl s)
  unfold arpSend
  simp only [wp_bind, wp_emit, wp_findArpEntry]
  split
  · next e hfind =>
    have hip : (s.arp.entries e).ip = target := by
      have hfound := List.find?_some hfind
      simpa using hfound
    simp only [wp_bind, wp_get, wp_ite, Stack.observe_arp]
    split
    · next hvalid =>
      apply wp_always
      apply macSend_inOrder hseen (hs.owned.not_queued List.mem_cons_self) hlength hjoins
      intro hhere
      refine .inr fun e' => ?_
      by_cases he : e' = e
      · subst he
        exact queued_nil (h.resolved e' hvalid).1
      · exact h.beside hs.arp (hs.table hno) (List.mem_of_find?_eq_some hfind) (hip.trans hhere) he
    · next hinvalid =>
      apply wp_always
      apply addToArpEntryQueue_inOrder hseen (Bool.eq_false_iff.mpr hinvalid) hlength
      show Joins ip (s.arp.entries e).ip _ given given'
      rwa [hip]
  · next hfind =>
    have hfresh : ∀ a ∈ s.arp.usedEntries, (s.arp.entries a).ip ≠ target := by
      intro a ha
      have hnot := List.find?_eq_none.mp hfind a ha
      simpa using hnot
    have hallocated : wp allocateEntry _ (Stopped False U limit 96) _ := allocateEntry_sound hstart fun _ => hfresh
    have hunused : wp allocateEntry _ (fun _ _ => True) _ := allocateEntry_unused hstart (p := p) List.mem_cons_self
    rw [wp_bind]
    apply wp_partial (wp_and hallocated (wp_and (allocateEntry_idles _) hunused))
    rintro e t ⟨⟨hmem, hpackets, htrace, ht⟩, hidle, hempty⟩
    simp only [wp_bind, wp_getTime, wp_modifyEntry]
    let taken := t.setEntry e { t.arp.entries e with ip := target, containValidMapping := false, time := t.time }
    have hadds : wp (addToArpEntryQueue p e) (fun _ u => NoEviction u.trace → InOrder ip given' u)
        (fun _ _ => True) taken := by
      apply wp_unevicted (addToArpEntryQueue_delivers p e)
      intro hno'
      have htaken : InOrder ip given taken := (hseen.idle hidle).addressed (hempty hno') t.time
      have hsame : taken.packets p = s.packets p := congrFun hpackets p
      have hentry : (taken.arp.entries e).ip = target ∧ (taken.arp.entries e).containValidMapping = false := by simp [taken]
      apply addToArpEntryQueue_inOrder htaken hentry.2
      · rwa [hsame]
      · rwa [hsame, hentry.1]
    have hadded : wp (addToArpEntryQueue p e) (fun _ u => Sound False U limit held u) (Stopped False U limit 96) taken := by
      apply addToArpEntryQueue_sound (ht t.time) False.elim
      · simp
      · intro hne
        rw [Stack.setEntry_trace, htrace hne, hpending]
        simp
      · intro _
        exact hmem
    apply wp_partial (wp_and hadded hadds)
    rintro _ u ⟨hu, hordered⟩
    apply wp_unevicted (sendArpPacket_delivers _ _ _)
    intro hno'
    exact sendArpPacket_inOrder (hordered hno') hu.owned _ _ _

/-- All that waits on the entry is sent, in order. -/
theorem updateArpMapping_inOrder (hs : Sound False U limit held s) (h : InOrder ip given s) (hno : NoEviction s.trace)
    (hone : mac ≠ broadcastMac) :
    wp (updateArpMapping target mac true) (fun _ t => InOrder ip given t) (fun _ _ => True) s := by
  by_cases hentry : ∃ e, Unresolved s target e
  · obtain ⟨e, hentry⟩ := hentry
    have hqueue : ((mapped e target mac s).arp.entries e).packetQueue = (s.arp.entries e).packetQueue := by
      rw [mapped_entry]
    rw [updateArpMapping_sends hentry]
    apply wp_partial (wp_and (sendPacketsOnEntry_flushes hqueue) (sendPacketsOnEntry_others e _ _))
    rintro _ t ⟨⟨honly, hflushed⟩, _, hothers⟩
    have hsame : ∀ e', e' ≠ e → t.arp.entries e' = s.arp.entries e' ∧
        ∀ q ∈ (s.arp.entries e').packetQueue, t.packets q = s.packets q := by
      intro e' he
      refine ⟨?_, fun q hq => ?_⟩
      · rw [honly.others e' he, mapped_other he]
      · exact hothers q fun hmem => he (hs.owned.one_queue hq hmem)
    have hleft : departures ip t.trace = queued ip s e ++ departures ip s.trace := by
      have hframes : sentFrames t.trace =
          (s.arp.entries e).packetQueue.reverse.map (ipv4Frame mac s) ++ sentFrames s.trace := by
        rw [hflushed.frames (hs.owned.queue_nodup e), mapped_entry]
        rfl
      rw [departures, hframes, List.filterMap_append, List.filterMap_map]
      congr 1
      apply List.filterMap_congr
      intro q hq
      have hlength := (h.waiting e q (List.mem_reverse.mp hq)).1
      show frameDeparture ip (ipv4Frame mac s q) = _
      rw [ipv4Frame, frameDeparture_ipv4 ip mac s.ourMac hlength, decide_eq_false hone]
    refine ⟨fun e' q hq => ?_, fun e' hvalid => ?_, fun e' => ?_⟩
    · by_cases he : e' = e
      · subst he
        rw [hflushed.queue] at hq
        exact absurd hq List.not_mem_nil
      · obtain ⟨hold, hpackets⟩ := hsame e' he
        rw [hold] at hq ⊢
        rw [hpackets q hq]
        exact h.waiting e' q hq
    · by_cases he : e' = e
      · subst he
        refine ⟨hflushed.queue, ?_⟩
        obtain ⟨queue, hafter⟩ := honly.entry
        rw [hafter, mapped_entry]
        exact hone
      · rw [(hsame e' he).1] at hvalid ⊢
        exact h.resolved e' hvalid
    · rw [hleft]
      by_cases he : e' = e
      · subst he
        rw [queued_nil hflushed.queue]
        exact h.order e'
      · obtain ⟨hold, hpackets⟩ := hsame e' he
        have hqueued : queued ip t e' = queued ip s e' := by
          apply queued_same
          · rw [hold]
          · rw [hold]
            exact hpackets
        rw [hqueued]
        by_cases hhere : target = ip
        · rw [h.beside hs.arp (hs.table hno) hentry.used (hentry.ip.trans hhere) he]
          exact h.order e
        · have hnone : queued ip s e = [] := by
            apply h.elsewhere
            rwa [hentry.ip]
          rw [hnone]
          exact h.order e'
  · rw [updateArpMapping_skips (not_exists.mp hentry)]
    exact h

/-- A broadcast leaves at once, and a packet for one host goes by ARP. No entry has been evicted. -/
theorem route_inOrder (hs : Sound False U limit (p :: held) s) (h : InOrder ip given s) (hno : NoEviction s.trace)
    (hlength : 0 ≤ (s.packets p).length) (hjoins : Joins ip target (s.packets p).payload given given') :
    wp (route p target) (fun _ t => NoEviction t.trace → InOrder ip given' t) (fun _ _ => True) s := by
  unfold route
  simp only [wp_bind, wp_get, wp_ite]
  split
  · exact wp_always (macSend_inOrder h (hs.owned.not_queued List.mem_cons_self) hlength hjoins fun _ => .inl rfl)
  · exact arpSend_inOrder hs h hno hlength hjoins

theorem route_delivers (packet : PacketId) (target : Ip) : Delivers False (route packet target) :=
  .bind .get fun _ => .ite (macSend_delivers _ _ _) (arpSend_delivers packet target)

theorem sendPacketsOnEntry_delivers (entry : ArpEntryId) (packets : List PacketId) :
    Delivers False (sendPacketsOnEntry entry packets) := by
  induction packets with
  | nil => exact .pure _
  | cons p rest ih =>
    exact .bind (modifyEntry_delivers _ _) fun _ => .bind .get fun _ => .bind (macSend_delivers _ _ _) fun _ => ih

/-- Nothing is passed to `udp_send_zero_copy`. -/
def Relayed (s t : Stack) : Prop := s.trace <:+ t.trace ∧ sentDatagrams t.trace = sentDatagrams s.trace

theorem DeliverFrame.relayed (h : DeliverFrame False s t) : Relayed s t :=
  ⟨h.past, h.observed fun _ hevent => hevent.datagram⟩

theorem updateArpMapping_relayed (target : Ip) (mac : Mac) (s : Stack) :
    wp (updateArpMapping target mac true) (fun _ t => Relayed s t) (fun _ _ => True) s := by
  by_cases hentry : ∃ e, Unresolved s target e
  · obtain ⟨e, hentry⟩ := hentry
    rw [updateArpMapping_sends hentry]
    apply wp_partial (sendPacketsOnEntry_delivers e _ _)
    intro _ t ht
    obtain ⟨hpast, hsame⟩ := ht.relayed
    exact ⟨(List.suffix_cons _ s.trace).trans hpast, hsame⟩
  · rw [updateArpMapping_skips (not_exists.mp hentry)]
    exact ⟨List.suffix_rfl, rfl⟩

/-- What the datagrams to an address keep in every call, as long as no entry is evicted. -/
def KeepsOrder (ip : Ip) (s : Stack) : Prop := NoEviction s.trace → InOrder ip (datagramsTo ip s.trace) s

theorem wp_keepsOrder {x : Net Unit} (hx : wp x (fun _ t => Relayed s t) (fun _ _ => True) s)
    (h : NoEviction s.trace →
      wp x (fun _ t => NoEviction t.trace → InOrder ip (datagramsTo ip s.trace) t) (fun _ _ => True) s) :
    wp x (fun _ t => KeepsOrder ip t) (fun _ _ => True) s := by
  by_cases hno : NoEviction s.trace
  · apply wp_partial (wp_and hx (h hno))
    rintro _ t ⟨⟨_, hsame⟩, hordered⟩ hno'
    rw [datagramsTo, hsame]
    exact hordered hno'
  · apply wp_next hx
    intro _ t ht hno'
    exact absurd (noEviction_suffix hno' ht.1) hno

theorem wp_relayed {x : Net Unit} (hx : Delivers False x) : wp x (fun _ t => Relayed s t) (fun _ _ => True) s := by
  apply wp_partial (hx s)
  intro _ t ht
  exact ht.relayed

theorem datagramsTo_cons {d : Datagram} (h : sentDatagrams t.trace = d :: sentDatagrams s.trace) :
    datagramsTo ip t.trace = if d.ip = ip then d :: datagramsTo ip s.trace else datagramsTo ip s.trace := by
  rw [datagramsTo, datagramsTo, h, List.filter_cons]
  simp only [decide_eq_true_eq]

/-- A datagram that has been built joins the datagrams to its target. -/
theorem DatagramBuilt.joins (h : DatagramBuilt p target s t) (ip : Ip) : 0 ≤ (t.packets p).length ∧
    Joins ip target (t.packets p).payload (datagramsTo ip s.trace) (datagramsTo ip t.trace) := by
  obtain ⟨sourcePort, destPort, k, hlength, hpacket, hsent⟩ := h.built
  let body := (udpFramed sourcePort destPort t.ourIp target k).payload
  have hbody : UdpBody ⟨sourcePort, destPort, target, k.payload⟩ t.ourIp body :=
    udpFramed_body sourcePort destPort t.ourIp target hlength.1 hlength.2
  have hwhole : (udpFramed sourcePort destPort t.ourIp target k).length = k.length + 8 := rfl
  have hip : IpPacket ipProtocolUdp t.ourIp target body (t.packets p).payload := by
    rw [hpacket]
    apply ipFramed_packet
    · omega
    · omega
  constructor
  · rw [hpacket]
    show 0 ≤ k.length + 8 + 20
    omega
  · rw [datagramsTo_cons hsent]
    split
    · next hhere =>
      have hdeparts : ∀ toAll, departure ip toAll (t.packets p).payload = some ⟨toAll, (t.packets p).payload⟩ := by
        intro toAll
        rw [← show target = ip from hhere]
        exact hip.departs
      exact .counted _ hhere hdeparts fun _ => ⟨t.ourIp, body, hbody, hip⟩
    · next hne => exact .other fun _ => hip.elsewhere hne

/-- An answer to a ping is no datagram. -/
theorem EchoBuilt.joins (h : EchoBuilt p target s) (ip : Ip) (given : List Datagram) : 0 ≤ (s.packets p).length ∧
    Joins ip target (s.packets p).payload given given := by
  obtain ⟨k, hlength, hpacket⟩ := h
  have hanswer : (pingAnswered k).length = k.length := rfl
  have hip : IpPacket ipProtocolIcmp s.ourIp target (pingAnswered k).payload (s.packets p).payload := by
    rw [hpacket]
    apply ipFramed_packet
    · omega
    · omega
  constructor
  · rw [hpacket]
    show 0 ≤ k.length + 20
    omega
  · exact .other fun _ => hip.other (by decide)

/-- The order is an invariant of what is sent, as long as no host owns the broadcast MAC. -/
theorem inOrder_wired (hone : ∀ target, ¬ owner target broadcastMac) :
    WireInvariant addresses owner (KeepsOrder ip) where
  idle h hidle hno := by
    have hgiven := datagramsTo_later ip hidle.past
    exact ((h (noEviction_suffix hno hidle.past)).idle hidle).later hgiven
  datagram {_ _ _ s t p target} hs h hown hbuilt := by
    apply wp_keepsOrder (wp_relayed (route_delivers p target))
    intro hno
    obtain ⟨hlength, hjoins⟩ := hbuilt.joins ip
    have hbefore : InOrder ip (datagramsTo ip s.trace) s := h (noEviction_suffix hno hbuilt.idle.past)
    exact route_inOrder hs (hbefore.idle hbuilt.idle) hno hlength hjoins
  echo {_ _ _ s p target} hs h hown hbuilt := by
    apply wp_keepsOrder (wp_relayed (route_delivers p target))
    intro hno
    obtain ⟨hlength, hjoins⟩ := hbuilt.joins ip (datagramsTo ip s.trace)
    exact route_inOrder hs (h hno) hno hlength hjoins
  arpPacket {_ s _} howned h hown htype targetMac targetIp := by
    apply wp_keepsOrder (wp_relayed (sendArpPacket_delivers _ _ _))
    intro hno
    exact wp_always (sendArpPacket_inOrder (h hno) howned targetMac targetIp _)
  mapping {_ _ _ s target mac} hs h howner := by
    apply wp_keepsOrder (updateArpMapping_relayed target mac s)
    intro hno
    have hmac : mac ≠ broadcastMac := by
      rintro rfl
      exact hone target howner
    exact wp_always (updateArpMapping_inOrder hs (h hno) hno hmac)

variable {application : Application} {time : Time} {entropy : Nat → UInt32}

/-- Nothing has been sent and nothing waits. -/
theorem booted_keepsOrder : KeepsOrder ip (booted application time entropy) := by
  have hfresh : Fresh application time entropy (booted application time entropy) := booted_fresh
  intro _
  refine ⟨fun e p hp => ?_, fun e hvalid => ?_, fun e => ?_⟩
  · rw [hfresh.arp.2.2 e] at hp
    exact absurd hp List.not_mem_nil
  · rw [hfresh.arp.2.2 e] at hvalid
    cases hvalid
  · have hnothing : queued ip (booted application time entropy) e = [] := by
      apply queued_nil
      rw [hfresh.arp.2.2 e]
    rw [hnothing, hfresh.trace]
    exact .nil _

end MiniIp.Invariant
