import MiniIp.Guarantees.AddressResolution
import MiniIp.Guarantees.ArpCache
import MiniIp.Invariant.ArpAllocation

/-!
# Order through address resolution

From the call of `arp_send` that takes an entry until the entry is freed or taken
again, the packets for its address are passed to `mac_send` in the order of the
calls, each at most once. Before the address is resolved the last two wait and
the older ones have been given back; then those two go out first.

The counter of the entry (arp.c:180-194) is the length of its queue as long as the
entry is not valid. `send_packets_on_entry` (arp.c:239-252) empties the queue and
leaves the counter, which nobody reads of a valid entry.
-/

set_option autoImplicit false

namespace MiniIp.Guarantees.ArpOrder

open MiniIp.Source MiniIp.Invariant MiniIp.Library.DropOldest MiniIp.Library.Runs MiniIp.Library.Wp

/-- A call of `arp_send` takes the entry for the address, and nothing waits on it. -/
structure Allocated (bytes : List UInt8) (ip : Ip) (e : ArpEntryId) (s t : Stack) : Prop where
  unknown : entryFor s ip = none
  empty : ∀ x rest, s.arp.freeEntries = x :: rest → (s.arp.entries x).packetQueue = []
  returned : Op.exec (.sendToIp bytes ip) s = .ok () t
  entry : entryFor t ip = some e

/-- Calls for the address, frames that carry no datagram, and polls of `arp_task` that do not free the entry, with
what the hardware, the clock and the configuration of the host do in between. -/
def Window (ip : Ip) (e : ArpEntryId) (s : Stack) : Op → Prop
  | .sendToIp _ ip' => ip' = ip
  | .receive => NoDatagram s
  | .arpTask => ¬ Releases s e
  | .receiveDone .. | .transmitDone _ | .transmitStatus _ | .tick _ | .setOurMac _ | .setOurIp _ | .setOurNetmask _ => True
  | _ => False

/-- The packets before the address is resolved. All lists but the queue have the newest first. -/
structure BeforeReply (ip : Ip) (e : ArpEntryId) (w : List Event) (s : Stack) : Prop where
  queue : (s.arp.entries e).packetQueue = ((callsTo ip w).take 2).reverse
  dropped : droppedFor ip w = (callsTo ip w).drop 2
  passed : passedFor ip w = []
  count : (s.arp.entries e).packetCount = (s.arp.entries e).packetQueue.length

/-- The packets after it: what waited then, and after it what was sent since. -/
structure AfterReply (ip : Ip) (e : ArpEntryId) (w : List Event) (s : Stack) : Prop where
  queue : (s.arp.entries e).packetQueue = []
  resolved : ∃ newer mac older, w = newer ++ .arpMapped ip mac :: older ∧ passedFor ip older = [] ∧
    droppedFor ip w = (callsTo ip older).drop 2 ∧ passedFor ip w = callsTo ip newer ++ (callsTo ip older).take 2

/-- The events `w` have the packets in order. -/
structure InOrder (ip : Ip) (e : ArpEntryId) (w : List Event) (s : Stack) : Prop where
  order : callsTo ip w = (s.arp.entries e).packetQueue.reverse ++ (passedFor ip w ++ droppedFor ip w)
  unresolved : (s.arp.entries e).containValidMapping = false → BeforeReply ip e w s
  resolved : (s.arp.entries e).containValidMapping = true → AfterReply ip e w s

/-- The entry is the only one for its address, and its packets are accounted for. -/
structure Tracked (ip : Ip) (e : ArpEntryId) (w : List Event) (s : Stack) : Prop where
  used : e ∈ s.arp.usedEntries
  address : (s.arp.entries e).ip = ip
  only : ∀ x ∈ s.arp.usedEntries, (s.arp.entries x).ip = ip → x = e
  outstanding : Outstanding ip (s.arp.entries e).packetQueue w
  inOrder : InOrder ip e w s

variable {bytes : List UInt8} {ip : Ip} {e : ArpEntryId} {w new : List Event} {s t : Stack} {p : PacketId}

theorem callsTo_append (ip : Ip) (new past : List Event) : callsTo ip (new ++ past) = callsTo ip new ++ callsTo ip past :=
  List.filterMap_append

theorem tracked_found (h : Tracked ip e w s) : entryFor s ip = some e := by
  cases hfind : entryFor s ip with
  | none =>
    have hnone := List.find?_eq_none.mp hfind e h.used
    simp [h.address] at hnone
  | some x =>
    have hip : (s.arp.entries x).ip = ip := by simpa using List.find?_some hfind
    rw [h.only x (List.mem_of_find?_eq_some hfind) hip]

/-- The first two of the calls wait, and the others have been dropped. -/
theorem waiting_of_order {queue calls dropped : List PacketId} (horder : calls = queue.reverse ++ dropped)
    (hlength : queue.length = min 2 calls.length) : queue = (calls.take 2).reverse ∧ dropped = calls.drop 2 := by
  have hcalls : calls.length = queue.length + dropped.length := by
    rw [horder, List.length_append, List.length_reverse]
  by_cases hfull : queue.length = 2
  · have htwo : queue.reverse.length = 2 := by rw [List.length_reverse, hfull]
    rw [horder]
    constructor
    · rw [← htwo, List.take_left, List.reverse_reverse]
    · rw [← htwo, List.drop_left]
  · have hnone : dropped = [] := List.length_eq_zero_iff.mp (by omega)
    have hfew : calls.length ≤ 2 := by omega
    constructor
    · rw [List.take_of_length_le hfew, horder, hnone, List.append_nil, List.reverse_reverse]
    · rw [List.drop_of_length_le hfew, hnone]

theorem keep_length {queue : List PacketId} (h : queue.length ≤ 3) : (keep 2 queue).length = min 2 queue.length := by
  unfold keep
  split
  · next hlong =>
    rw [List.length_tail]
    omega
  · omega

/-- The accounts are as before, so no call has been added. -/
theorem calls_none (h : callsTo ip (new ++ w) = callsTo ip w) : callsTo ip new = [] := by
  rw [callsTo_append] at h
  exact List.append_left_eq_self.mp h

/-- A step that passes by the entry. -/
theorem tracked_passed (h : Tracked ip e w s) (ht : PassesBy (s.arp.entries e).packetQueue e s t) :
    ∃ new, t.trace = new ++ s.trace ∧ Tracked ip e (new ++ w) t := by
  obtain ⟨retryCount, time, hentry⟩ := ht.entry
  obtain ⟨new, htrace, hturns⟩ := ht.turned ip
  have haccounts := hturns.accounts w h.outstanding
  have hcalls : callsTo ip (new ++ w) = callsTo ip w := congrArg Accounts.calls haccounts
  have hdropped : droppedFor ip (new ++ w) = droppedFor ip w := congrArg Accounts.dropped haccounts
  have hpassed : passedFor ip (new ++ w) = passedFor ip w := congrArg Accounts.passed haccounts
  refine ⟨new, htrace, ht.kept h.used, by rw [ht.ips, h.address], ?_, ?_, ?_, ?_, ?_⟩
  · intro x hx hip
    rw [ht.ips x] at hip
    exact h.only x (ht.used x hx) hip
  · rw [hentry]
    exact hturns.waiting w h.outstanding
  · rw [hcalls, hdropped, hpassed, hentry]
    exact h.inOrder.order
  · intro hinvalid
    rw [hentry] at hinvalid
    obtain ⟨hqueue, hold, hnone, hcount⟩ := h.inOrder.unresolved hinvalid
    constructor
    · rw [hentry, hcalls, ← hqueue]
    · rw [hdropped, hold, hcalls]
    · rw [hpassed, hnone]
    · rw [hentry, ← hcount]
  · intro hvalid
    rw [hentry] at hvalid
    obtain ⟨hqueue, newer, mac, older, hw, hbefore, hold, hsent⟩ := h.inOrder.resolved hvalid
    refine ⟨by rw [hentry, ← hqueue], new ++ newer, mac, older, by rw [hw, List.append_assoc], hbefore, ?_, ?_⟩
    · rw [hdropped, hold]
    · rw [hpassed, hsent, callsTo_append, calls_none hcalls, List.nil_append]

/-- The reply: what waits is passed on. -/
theorem tracked_settled (h : Tracked ip e w s) (ht : Settled ip e s t) :
    ∃ new, t.trace = new ++ s.trace ∧ Tracked ip e (new ++ w) t := by
  obtain ⟨mac, newer, older, htrace, holder, hturns⟩ := ht.flushed
  obtain ⟨hqueue, hold, hnone, hcount⟩ := h.inOrder.unresolved ht.invalid
  have hseen : ∀ event ∈ Event.arpMapped ip mac :: older, Beside (s.arp.entries e).packetQueue event := by
    intro event he
    rcases List.mem_cons.mp he with rfl | hmem
    · trivial
    · exact holder event hmem
  have hturned := (Turns.besides hseen).trans hturns
  have hearlier : Turns ip _ _ id older := .besides holder
  have haccounts := hturned.accounts w h.outstanding
  have haccounts' := hearlier.accounts w h.outstanding
  have hcalls : callsTo ip ((newer ++ .arpMapped ip mac :: older) ++ w) = callsTo ip w :=
    congrArg Accounts.calls haccounts
  have hcalls' : callsTo ip (older ++ w) = callsTo ip w := congrArg Accounts.calls haccounts'
  have hdropped : droppedFor ip ((newer ++ .arpMapped ip mac :: older) ++ w) = droppedFor ip w :=
    congrArg Accounts.dropped haccounts
  have hpassed : passedFor ip ((newer ++ .arpMapped ip mac :: older) ++ w) =
      (s.arp.entries e).packetQueue.reverse ++ passedFor ip w := congrArg Accounts.passed haccounts
  have hpassed' : passedFor ip (older ++ w) = passedFor ip w := congrArg Accounts.passed haccounts'
  have hnewer : callsTo ip newer = [] := by
    rw [List.append_assoc] at hcalls
    exact calls_none (hcalls.trans hcalls'.symm)
  refine ⟨newer ++ .arpMapped ip mac :: older, by simp [htrace], by rw [ht.used]; exact h.used,
    by rw [ht.ips, h.address], ?_, ?_, ?_, ?_, ?_⟩
  · intro x hx hip
    rw [ht.used] at hx
    rw [ht.ips x] at hip
    exact h.only x hx hip
  · rw [ht.empty]
    exact hturned.waiting w h.outstanding
  · rw [hcalls, hdropped, hpassed, ht.empty, h.inOrder.order]
    simp
  · intro hinvalid
    rw [ht.valid] at hinvalid
    cases hinvalid
  · intro _
    refine ⟨ht.empty, newer, mac, older ++ w, by simp, by rw [hpassed', hnone], ?_, ?_⟩
    · rw [hdropped, hold, hcalls']
    · rw [hpassed, hnone, hnewer, hcalls', hqueue]
      simp

/-- A call when the entry is valid: its packet is passed on. -/
theorem tracked_sent (h : Tracked ip e w s) (hvalid : (s.arp.entries e).containValidMapping = true) (harp : t.arp = s.arp)
    (ht : TurnedBy ip [] [] (.pass p ∘ .call p) s t) : ∃ new, t.trace = new ++ s.trace ∧ Tracked ip e (new ++ w) t := by
  obtain ⟨new, htrace, hturns⟩ := ht
  obtain ⟨hqueue, newer, mac, older, hw, hbefore, hold, hsent⟩ := h.inOrder.resolved hvalid
  have houtstanding := h.outstanding
  rw [hqueue] at houtstanding
  have haccounts := hturns.accounts w houtstanding
  have hcalls : callsTo ip (new ++ w) = p :: callsTo ip w := congrArg Accounts.calls haccounts
  have hdropped : droppedFor ip (new ++ w) = droppedFor ip w := congrArg Accounts.dropped haccounts
  have hpassed : passedFor ip (new ++ w) = p :: passedFor ip w := congrArg Accounts.passed haccounts
  have hone : callsTo ip new = [p] := by
    rw [callsTo_append, ← List.singleton_append] at hcalls
    exact List.append_cancel_right hcalls
  refine ⟨new, htrace, by rw [harp]; exact h.used, by rw [harp]; exact h.address, by rw [harp]; exact h.only, ?_, ?_, ?_, ?_⟩
  · rw [harp, hqueue]
    exact hturns.waiting w houtstanding
  · rw [hcalls, hdropped, hpassed, harp, hqueue, h.inOrder.order, hqueue]
    rfl
  · intro hinvalid
    rw [harp, hvalid] at hinvalid
    cases hinvalid
  · intro _
    refine ⟨by rw [harp, hqueue], new ++ newer, mac, older, by rw [hw, List.append_assoc], hbefore, ?_, ?_⟩
    · rw [hdropped, hold]
    · rw [hpassed, hsent, callsTo_append, hone]
      rfl

/-- A call before that: its packet waits. -/
theorem tracked_queued (h : Tracked ip e w s) (hinvalid : (s.arp.entries e).containValidMapping = false)
    (ht : Queued p e s t)
    (hshortened : ShortenedBy ip ((s.arp.entries e).packetQueue ++ [p]) (s.observe (.arpSend p ip)) t) :
    ∃ new, t.trace = new ++ s.trace ∧ Tracked ip e (new ++ w) t := by
  obtain ⟨dropped, hsplit, hlater⟩ := hshortened
  obtain ⟨new, htrace, hturns⟩ := (arpSend_turns p ip (s.arp.entries e).packetQueue s).trans hlater
  obtain ⟨hqueue, hold, hnone, hcount⟩ := h.inOrder.unresolved hinvalid
  have haccounts := hturns.accounts w h.outstanding
  have hcalls : callsTo ip (new ++ w) = p :: callsTo ip w := congrArg Accounts.calls haccounts
  have hdropped : droppedFor ip (new ++ w) = dropped.reverse ++ droppedFor ip w := congrArg Accounts.dropped haccounts
  have hpassed : passedFor ip (new ++ w) = passedFor ip w := congrArg Accounts.passed haccounts
  have hlength : (s.arp.entries e).packetQueue.length = min 2 (callsTo ip w).length := by
    rw [hqueue, List.length_reverse, List.length_take]
  have hkept : (keep 2 ((s.arp.entries e).packetQueue ++ [p])).length = min 2 (callsTo ip (new ++ w)).length := by
    rw [keep_length (by simp; omega), hcalls]
    simp only [List.length_append, List.length_cons, List.length_nil]
    omega
  have horder : callsTo ip (new ++ w) =
      (keep 2 ((s.arp.entries e).packetQueue ++ [p])).reverse ++ droppedFor ip (new ++ w) := by
    have hreverse := congrArg List.reverse hsplit
    rw [List.reverse_append, List.reverse_append, List.reverse_singleton, List.singleton_append] at hreverse
    rw [hdropped, ← List.append_assoc, ← hreverse, hcalls, h.inOrder.order, hnone]
    rfl
  obtain ⟨hwaiting, hgone⟩ := waiting_of_order horder hkept
  have hips : ∀ x, (t.arp.entries x).ip = (s.arp.entries x).ip := by
    intro x
    by_cases hx : x = e
    · rw [hx, ht.entry]
    · rw [ht.others x hx]
  refine ⟨new, htrace, by rw [ht.used]; exact h.used, by rw [hips, h.address], ?_, ?_, ?_, ?_, ?_⟩
  · intro x hx hip
    rw [ht.used] at hx
    rw [hips x] at hip
    exact h.only x hx hip
  · rw [ht.entry]
    exact hturns.waiting w h.outstanding
  · rw [ht.entry, hpassed, hnone]
    exact horder
  · intro _
    refine ⟨by rw [ht.entry, ← hwaiting], hgone, by rw [hpassed, hnone], by rw [ht.entry]⟩
  · intro hvalid
    rw [ht.entry, hinvalid] at hvalid
    cases hvalid

/-- Nothing happens to the table. -/
theorem tracked_same (h : Tracked ip e w s) (harp : t.arp = s.arp) : Tracked ip e w t := by
  refine ⟨by rw [harp]; exact h.used, by rw [harp]; exact h.address, by rw [harp]; exact h.only,
    by rw [harp]; exact h.outstanding, by rw [harp]; exact h.inOrder.order, fun hinvalid => ?_, fun hvalid => ?_⟩
  · rw [harp] at hinvalid
    obtain ⟨hqueue, hold, hnone, hcount⟩ := h.inOrder.unresolved hinvalid
    exact ⟨by rw [harp, hqueue], hold, hnone, by rw [harp, hcount]⟩
  · rw [harp] at hvalid
    obtain ⟨hqueue, hresolved⟩ := h.inOrder.resolved hvalid
    exact ⟨by rw [harp, hqueue], hresolved⟩

variable {W : Prop} {U : QueueContent} {limit : ℕ} {held : List PacketId} {op : Op}

/-- Some events more, and the entry is still tracked. -/
def Advances (ip : Ip) (e : ArpEntryId) (w : List Event) (s t : Stack) : Prop :=
  ∃ new, t.trace = new ++ s.trace ∧ Tracked ip e (new ++ w) t

theorem advances_same (h : Tracked ip e w s) (harp : t.arp = s.arp) (htrace : t.trace = s.trace) : Advances ip e w s t :=
  ⟨[], htrace, tracked_same h harp⟩

theorem sendToIp_advances (hs : Owned held s) (h : Tracked ip e w s) (bytes : List UInt8) :
    wp (sendToIp bytes ip) (fun _ t => Advances ip e w s t) (fun _ _ => True) s := by
  apply sendToIp_calls (hs.apart e)
  intro p u hp hpassed
  obtain ⟨retryCount, time, hentry⟩ := hpassed.entry
  obtain ⟨new, htrace, hu⟩ := tracked_passed h hpassed
  have hcontinues : ∀ t, (∃ new', t.trace = new' ++ u.trace ∧ Tracked ip e (new' ++ (new ++ w)) t) →
      Advances ip e w s t := by
    intro t ht
    obtain ⟨new', htrace', ht⟩ := ht
    rw [← List.append_assoc] at ht
    exact ⟨new' ++ new, by rw [htrace', htrace, List.append_assoc], ht⟩
  cases hvalid : (u.arp.entries e).containValidMapping with
  | true =>
    apply wp_next (arpSend_passes (tracked_found hu) hvalid)
    intro _ t ht
    exact hcontinues t (tracked_sent hu hvalid ht.1 ht.2)
  | false =>
    obtain ⟨hqueue, _, _, hcount⟩ := hu.inOrder.unresolved hvalid
    have hshort : (u.arp.entries e).packetQueue.length ≤ 2 := by
      rw [hqueue, List.length_reverse, List.length_take]
      omega
    have hnodup : ((u.arp.entries e).packetQueue ++ [p]).Nodup := by
      rw [hentry, List.nodup_append_comm]
      exact List.nodup_cons.mpr ⟨hp, ArpCache.owned_queue_nodup hs e⟩
    apply wp_next (arpSend_waits ⟨tracked_found hu, hvalid⟩ hcount hshort hnodup)
    intro _ t ht
    exact hcontinues t (tracked_queued hu hvalid ht.1 ht.2)

theorem exec_advances (hs : Owned held s) (h : Tracked ip e w s) (hop : Window ip e s op) :
    wp op.exec (fun _ t => Advances ip e w s t) (fun _ _ => True) s := by
  have hapart := hs.apart e
  cases op with
  | receiveDone slot status bytes =>
    simp only [Op.exec, gmacReceiveDone, wp_bind, wp_get, wp_ite]
    split
    · split
      · exact advances_same h rfl rfl
      · exact advances_same h rfl rfl
    · exact advances_same h rfl rfl
  | receive =>
    simp only [Op.exec, wp_bind, wp_pure]
    apply wp_next (receivePacket_effects hapart (ArpCache.owned_queue_nodup hs e) h.address hop)
    intro _ t ht
    cases ht with
    | inl hpassed => exact tracked_passed h hpassed
    | inr hsettled => exact tracked_settled h hsettled
  | arpTask =>
    apply wp_next (arpTask_passesBy hapart hop)
    intro _ t ht
    exact tracked_passed h ht
  | sendToIp bytes ip' =>
    obtain rfl : ip' = ip := hop
    exact sendToIp_advances hs h bytes
  | transmitDone slot => exact advances_same h rfl rfl
  | transmitStatus tsr => exact advances_same h rfl rfl
  | tick now => exact advances_same h rfl rfl
  | setOurMac mac => exact advances_same h rfl rfl
  | setOurIp ip' => exact advances_same h rfl rfl
  | setOurNetmask netmask => exact advances_same h rfl rfl
  | _ => exact hop.elim

theorem allocated_tracked (hs : Sound W U limit held s) (h : Allocated bytes ip e s t) :
    ∃ w, t.trace = w ++ s.trace ∧ Tracked ip e w t := by
  have hstarts : wp (sendToIp bytes ip) (fun _ t => ∃ p e, Started ip p e t ∧ TurnedBy ip [] [p] (.call p) s t)
      (fun _ _ => True) s := sendToIp_starts hs h.unknown h.empty
  obtain ⟨p, x, hstarted, new, htrace, hturns⟩ := wp_ok hstarts h.returned
  have haccounts := hturns.accounts [] (.start ip)
  rw [List.append_nil] at haccounts
  have hcalls : callsTo ip new = [p] := congrArg Accounts.calls haccounts
  have hdropped : droppedFor ip new = [] := congrArg Accounts.dropped haccounts
  have hpassed : passedFor ip new = [] := congrArg Accounts.passed haccounts
  have htracked : Tracked ip x new t := by
    refine ⟨hstarted.used, hstarted.address, hstarted.only, ?_, ?_, fun _ => ?_, fun hvalid => ?_⟩
    · rw [hstarted.queue, ← List.append_nil new]
      exact hturns.waiting [] (.start ip)
    · rw [hcalls, hdropped, hpassed, hstarted.queue]
      rfl
    · refine ⟨?_, ?_, hpassed, ?_⟩
      · rw [hcalls, hstarted.queue]
        rfl
      · rw [hcalls, hdropped]
        rfl
      · rw [hstarted.count, hstarted.queue]
        rfl
    · rw [hstarted.invalid] at hvalid
      cases hvalid
  have hfound := tracked_found htracked
  rw [h.entry] at hfound
  obtain rfl : e = x := Option.some.inj hfound
  exact ⟨new, htrace, htracked⟩

variable {application : Application} {time : Time} {entropy : Nat → UInt32} {ok : Stack → Op → Prop} {u : Stack}

/-- No operation of the window uses a node that `list_remove_first` did not find. -/
theorem window_removes (hs : Sound False U limit held s) (hop : Window ip e s op) (hbrings : Brings U s) :
    wp op.exec (fun _ _ => True) (fun halt _ => halt ≠ .nullPointer) s := by
  have hpermitted : Permitted False U limit s op := by
    cases op with
    | receive => exact ⟨hbrings, fun w => w.elim⟩
    | udpListen port maxPacketCount => exact hop.elim
    | udpSend data size sourcePort destPort ip => exact hop.elim
    | dhcpStart => exact hop.elim
    | downloadFile filename serverIp => exact hop.elim
    | readFile size => exact hop.elim
    | abortDownload errorMessage => exact hop.elim
    | _ => trivial
  apply wp_mono (exec_sound (held.length + 1) hs (le_refl _) hpermitted)
  · intro _ _ _
    trivial
  · intro _ _ hstopped
    exact hstopped.node

/-- From the call that takes the entry until it is freed or taken again, the packets for its address are in order, and
`add_to_arp_entry_queue` finds a packet to remove whenever it looks for one. -/
theorem arp_in_order (h : Reaches Op.exec ok (booted application time entropy) s) (halloc : Allocated bytes ip e s t)
    (hrun : Reaches Op.exec (Window ip e) t u) :
    ∃ w, u.trace = w ++ s.trace ∧ entryFor u ip = some e ∧ InOrder ip e w u ∧
      ∀ op, Window ip e u op → wp op.exec (fun _ _ => True) (fun halt _ => halt ≠ .nullPointer) u := by
  have hany : ∀ {v}, Reaches Op.exec ok (booted application time entropy) v →
      Reaches Op.exec (fun _ _ => True) (booted application time entropy) v :=
    fun hv => hv.mono fun _ _ _ => trivial
  have hstart : Reaches Op.exec (fun _ _ => True) (booted application time entropy) t :=
    (hany h).step _ trivial halloc.returned
  have hsound : ∀ {v}, Reaches Op.exec (Window ip e) t v → Intact False (fun _ _ _ _ => True) v :=
    fun hv => reaches_intact False (hstart.trans (hv.mono fun _ _ _ => trivial)) fun w => w.elim
  obtain ⟨_, _, hs⟩ := reaches_intact False h fun w => w.elim
  have htracked : ∃ w, u.trace = w ++ s.trace ∧ Tracked ip e w u := by
    apply hrun.invariant (I := fun v => ∃ w, v.trace = w ++ s.trace ∧ Tracked ip e w v) (allocated_tracked hs halloc)
    intro v op hreach hv hop
    obtain ⟨w, htrace, hw⟩ := hv
    obtain ⟨_, _, hsv⟩ := hsound hreach
    apply wp_next (exec_advances hsv.owned hw hop)
    intro _ v' hv'
    obtain ⟨new, htrace', hnew⟩ := hv'
    exact ⟨new ++ w, by rw [htrace', htrace, List.append_assoc], hnew⟩
  obtain ⟨w, htrace, hw⟩ := htracked
  obtain ⟨_, _, hsu⟩ := hsound hrun
  exact ⟨w, htrace, tracked_found hw, hw.inOrder, fun op hop => window_removes hsu hop (brings_any u)⟩

def carriesIp : Option (PacketId × Stack) → Bool
  | some (packet, s) => readBe16 (s.packets packet).data ((s.packets packet).index + 12) = etherTypeIpv4
  | none => false

/-- Compute whether an operation belongs to the window. -/
def windowGuard (ip : Ip) (e : ArpEntryId) (s : Stack) : Op → Bool
  | .sendToIp _ ip' => ip' = ip
  | .receive => carriesIp (received s) = false
  | .arpTask => ¬ Releases s e
  | .receiveDone .. | .tick _ => true
  | _ => false

theorem window_of_guard {op : Op} (h : windowGuard ip e s op = true) : Window ip e s op := by
  cases op with
  | sendToIp bytes ip' =>
    have hip : ip' = ip := of_decide_eq_true h
    exact hip
  | receive =>
    intro p t hreceived hcarries
    have hip : readBe16 (t.packets p).data ((t.packets p).index + 12) = etherTypeIpv4 := hcarries
    have hnot : carriesIp (received s) = false := of_decide_eq_true h
    rw [hreceived, carriesIp, decide_eq_true hip] at hnot
    cases hnot
  | arpTask =>
    have hcalm : ¬ Releases s e := of_decide_eq_true h
    exact hcalm
  | receiveDone slot status bytes => trivial
  | tick now => trivial
  | _ => cases h

/-- Two more calls, a poll that sends a second request, the reply, and a last call. -/
def resolvedWindow : List Op :=
  [.sendToIp [1] 0x0A000001, .sendToIp [2] 0x0A000001, .tick 1001, .arpTask, .deliver 0 60 (AddressResolution.arpReply 1),
    .receive, .sendToIp [3] 0x0A000001]

def resolvedWindowCheck (u : Stack) : Bool :=
  (u.arp.entries 7).containValidMapping && (callsTo 0x0A000001 u.trace).length == 4 &&
    (passedFor 0x0A000001 u.trace).length == 3 && (droppedFor 0x0A000001 u.trace).length == 1

def windowStart (s : Stack) : Bool :=
  entryFor s 0x0A000001 = none && s.arp.freeEntries.all (fun x => (s.arp.entries x).packetQueue.isEmpty) &&
    returnsWith (fun t => entryFor t 0x0A000001 = some 7 &&
      runs Op.exec (windowGuard 0x0A000001 7) resolvedWindowCheck resolvedWindow t)
      (Op.exec (.sendToIp [0] 0x0A000001)) s

/-- Of four packets the oldest is given back, and the others are passed on. -/
theorem arp_in_order_four_calls :
    ∃ s t u, Reaches Op.exec (fun _ _ => True) (booted zeroApplication 0 fun _ => 0) s ∧
      Allocated [0] 0x0A000001 7 s t ∧ Reaches Op.exec (Window 0x0A000001 7) t u ∧ resolvedWindowCheck u = true ∧
      ∃ w, u.trace = w ++ s.trace ∧ entryFor u 0x0A000001 = some 7 ∧ InOrder 0x0A000001 7 w u ∧
        ∀ op, Window 0x0A000001 7 u op → wp op.exec (fun _ _ => True) (fun halt _ => halt ≠ .nullPointer) u := by
  have hrun : runs Op.exec (fun _ _ => true) windowStart [.setOurIp 0x0A000063]
      (booted zeroApplication 0 fun _ => 0) = true := by
    decide +kernel
  obtain ⟨s, hreach, hcheck⟩ := reaches_of_runs (fun _ _ => True) .start (fun _ _ _ _ => trivial) hrun
  simp only [windowStart, Bool.and_eq_true, decide_eq_true_eq, List.all_eq_true, List.isEmpty_iff] at hcheck
  obtain ⟨⟨hunknown, hempty⟩, hreturns⟩ := hcheck
  obtain ⟨_, t, hreturned, hwindow⟩ := returns_of_wp (wp_of_returnsWith hreturns)
  simp only [Bool.and_eq_true, decide_eq_true_eq] at hwindow
  obtain ⟨hentry, hruns⟩ := hwindow
  have halloc : Allocated [0] 0x0A000001 7 s t := by
    refine ⟨hunknown, fun x rest hfree => hempty x ?_, hreturned, hentry⟩
    rw [hfree]
    exact List.mem_cons_self
  obtain ⟨u, hlater, hresolved⟩ := reaches_of_runs (Window 0x0A000001 7) .start (fun _ _ _ => window_of_guard) hruns
  exact ⟨s, t, u, hreach, halloc, hlater, hresolved, arp_in_order hreach halloc hlater⟩

end MiniIp.Guarantees.ArpOrder
