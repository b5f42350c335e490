import MiniIp.Invariant.ArpEffects
import MiniIp.Invariant.Composition
import MiniIp.Invariant.OptionGrammar

/-!
# The requests for an address

`requestsFor` reads off the frames that have been sent the broadcast ARP requests for an address. `ArpStep` says what
every operation but `arp_task` does to the requests and to the entry of that address. It says so of calls that return.
-/

set_option autoImplicit false

namespace MiniIp.Invariant

open MiniIp.Source MiniIp.Library.Wp

/-- The frame is a broadcast ARP request for the address. -/
def isRequestFor (ip : Ip) (frame : List UInt8) : Bool :=
  frame.take 6 = macBytes broadcastMac ∧ (frame.drop 12).take 2 = be16Bytes etherTypeArp ∧
    ((frame.drop 14).drop 6).take 2 = be16Bytes arpOperationRequest ∧ (frame.drop 14).drop 24 = be32Bytes ip

/-- The newest first. -/
def requestsFor (ip : Ip) (trace : List Event) : List (List UInt8) := (sentFrames trace).filter (isRequestFor ip)

variable {s t u : Stack} {e x : ArpEntryId} {ip ip' : Ip} {p : PacketId} {mac : Mac}

theorem be32_be32Bytes (value : UInt32) : be32 (be32Bytes value) = value := by
  have hread := readBe32_writeBe32 value 0 fun _ => 0
  rw [readBytes_four, readBytes_writeBe32] at hread
  exact hread

theorem be32Bytes_injective {value value' : UInt32} (h : be32Bytes value = be32Bytes value') : value = value' := by
  rw [← be32_be32Bytes value, h, be32_be32Bytes]

/-- The parts of a frame, in the order of the bytes. -/
theorem frame_parts {target sender type : List UInt8} (payload : List UInt8) (htarget : target.length = 6) (hsender : sender.length = 6)
    (htype : type.length = 2) : (target ++ sender ++ type ++ payload).take 6 = target ∧
      ((target ++ sender ++ type ++ payload).drop 12).take 2 = type ∧
      (target ++ sender ++ type ++ payload).drop 14 = payload := by
  refine ⟨?_, ?_, ?_⟩
  · rw [List.append_assoc, List.append_assoc, ← htarget, List.take_left]
  · have hfront : (target ++ sender).length = 12 := by simp [htarget, hsender]
    rw [List.append_assoc, ← hfront, List.drop_left, ← htype, List.take_left]
  · have hfront : (target ++ sender ++ type).length = 14 := by simp [htarget, hsender, htype]
    rw [← hfront, List.drop_left]

theorem arpBytes_parts (operation : UInt16) (sendersMac : Mac) (sendersIp : Ip) (targetMac : Mac) (targetIp : Ip) :
    ((arpBytes operation sendersMac sendersIp targetMac targetIp).drop 6).take 2 = be16Bytes operation ∧
      (arpBytes operation sendersMac sendersIp targetMac targetIp).drop 24 = be32Bytes targetIp := by
  have hlength : ([0, 1, 0x08, 0x00, 6, 4] ++ be16Bytes operation ++ macBytes sendersMac ++ be32Bytes sendersIp ++
      macBytes targetMac).length = 24 := by simp [macBytes_length, be32Bytes_length, be16Bytes]
  constructor
  · simp [arpBytes, be16Bytes]
  · rw [arpBytes, ← hlength, List.drop_left]

theorem isRequestFor_request (s : Stack) (targetMac : Mac) (targetIp : Ip) (old : NetworkPacket) :
    isRequestFor ip (arpFrame s targetMac targetIp .request old) = decide (targetIp = ip) := by
  have htype : (be16Bytes etherTypeArp).length = 2 := rfl
  obtain ⟨htarget, htype, hpayload⟩ := frame_parts (arpBytes arpOperationRequest s.ourMac s.ourIp (residueOf s) targetIp)
    (macBytes_length broadcastMac) (macBytes_length s.ourMac) htype
  obtain ⟨hoperation, haddress⟩ := arpBytes_parts arpOperationRequest s.ourMac s.ourIp (residueOf s) targetIp
  have hinjective : be32Bytes targetIp = be32Bytes ip ↔ targetIp = ip := ⟨be32Bytes_injective, congrArg be32Bytes⟩
  rw [isRequestFor, arpFrame_request, htarget, htype, hpayload, hoperation, haddress]
  simp [hinjective]

theorem isRequestFor_reply (s : Stack) (targetMac : Mac) (targetIp : Ip) (old : NetworkPacket) :
    isRequestFor ip (arpFrame s targetMac targetIp .reply old) = false := by
  have htype : (be16Bytes etherTypeArp).length = 2 := rfl
  obtain ⟨_, _, hpayload⟩ := frame_parts (arpBytes arpOperationReply s.ourMac s.ourIp targetMac targetIp)
    (macBytes_length targetMac) (macBytes_length s.ourMac) htype
  obtain ⟨hoperation, _⟩ := arpBytes_parts arpOperationReply s.ourMac s.ourIp targetMac targetIp
  have hother : be16Bytes arpOperationReply ≠ be16Bytes arpOperationRequest := by decide
  rw [isRequestFor, arpFrame_reply, hpayload, hoperation]
  simp [hother]

/-- A frame of another type, also one that is too short to have a type. -/
theorem isRequestFor_datagram (mac ourMac : Mac) (k : NetworkPacket) :
    isRequestFor ip (macFramed mac ourMac etherTypeIpv4 k).payload = false := by
  have hother : be16Bytes etherTypeIpv4 ≠ be16Bytes etherTypeArp := by decide
  have htype : (((macFramed mac ourMac etherTypeIpv4 k).payload.drop 12).take 2) ≠ be16Bytes etherTypeArp := by
    by_cases hlength : 0 ≤ k.length
    · obtain ⟨_, htype, _⟩ := frame_parts k.payload (macBytes_length mac) (macBytes_length ourMac)
        (show (be16Bytes etherTypeIpv4).length = 2 from rfl)
      rw [macFramed_frame _ _ _ hlength, htype]
      exact hother
    · intro heq
      have hshort : (macFramed mac ourMac etherTypeIpv4 k).payload.length < 14 := by
        rw [NetworkPacket.payload, readBytes_length]
        show (k.length + 14).toNat < 14
        omega
      have hlengths := congrArg List.length heq
      rw [List.length_take, List.length_drop, show (be16Bytes etherTypeArp).length = 2 from rfl] at hlengths
      omega
  simp [isRequestFor, htype]

/-- An entry is free or in use, and in its list once. -/
def ListedOnce (s : Stack) : Prop := (s.arp.freeEntries ++ s.arp.usedEntries).Nodup

/-- The entry is in use, and the only one for the address. -/
structure Slot (e : ArpEntryId) (ip : Ip) (s : Stack) : Prop where
  once : ListedOnce s
  used : e ∈ s.arp.usedEntries
  address : (s.arp.entries e).ip = ip
  only : ∀ x ∈ s.arp.usedEntries, (s.arp.entries x).ip = ip → x = e

/-- No entry in use is for the address. -/
structure NoSlot (ip : Ip) (s : Stack) : Prop where
  once : ListedOnce s
  none : ∀ x ∈ s.arp.usedEntries, (s.arp.entries x).ip ≠ ip

/-- The entry is as it was, up to its queue, or it has become valid. -/
def Rests (e : ArpEntryId) (s t : Stack) : Prop :=
  (∃ queue count, t.arp.entries e = { s.arp.entries e with packetQueue := queue, packetCount := count }) ∨
    (s.arp.entries e).containValidMapping = false ∧ (t.arp.entries e).containValidMapping = true ∧
      (t.arp.entries e).time = t.time

/-- The entry has been allocated now. -/
structure JustAllocated (e : ArpEntryId) (t : Stack) : Prop where
  time : (t.arp.entries e).time = t.time
  count : (t.arp.entries e).containValidMapping = false → (t.arp.entries e).retryCount = 0

/-- What an operation that is no poll does for an address. -/
structure ArpStep (ip : Ip) (s t : Stack) : Prop where
  past : s.trace <:+ t.trace
  time : t.time = s.time
  slot : NoEviction t.trace → ∀ e, Slot e ip s →
    Slot e ip t ∧ Rests e s t ∧ requestsFor ip t.trace = requestsFor ip s.trace
  noSlot : NoEviction t.trace → NoSlot ip s → (NoSlot ip t ∧ requestsFor ip t.trace = requestsFor ip s.trace) ∨
    ∃ e, Slot e ip t ∧ JustAllocated e t ∧ (requestsFor ip t.trace).length = (requestsFor ip s.trace).length + 1

theorem noEviction_suffix {past trace : List Event} (h : NoEviction trace) (hpast : past <:+ trace) : NoEviction past :=
  fun e he => h e (hpast.mem he)

theorem Rests.refl (e : ArpEntryId) (s : Stack) : Rests e s s := .inl ⟨_, _, rfl⟩

theorem Rests.trans (h : Rests e s t) (h' : Rests e t u) (htime : u.time = t.time) : Rests e s u := by
  rcases h with ⟨queue, count, hentry⟩ | ⟨hbefore, hvalid, hthen⟩
  · rcases h' with ⟨queue', count', hentry'⟩ | ⟨hbefore', hvalid', hthen'⟩
    · exact .inl ⟨queue', count', by rw [hentry', hentry]⟩
    · rw [hentry] at hbefore'
      exact .inr ⟨hbefore', hvalid', hthen'⟩
  · rcases h' with ⟨queue', count', hentry'⟩ | ⟨hbefore', _, _⟩
    · right
      rw [hentry']
      exact ⟨hbefore, hvalid, hthen.trans htime.symm⟩
    · rw [hvalid] at hbefore'
      cases hbefore'

theorem JustAllocated.rests (h : JustAllocated e s) (ht : Rests e s t) (htime : t.time = s.time) : JustAllocated e t := by
  rcases ht with ⟨queue, count, hentry⟩ | ⟨_, hvalid, hthen⟩
  · constructor
    · rw [hentry, htime]
      exact h.time
    · rw [hentry]
      exact h.count
  · exact ⟨hthen, fun hinvalid => absurd (hvalid.symm.trans hinvalid) (by decide)⟩

/-- The table is as it was, and no request has been sent. -/
theorem ArpStep.ofArp (harp : t.arp = s.arp) (htime : t.time = s.time) (hpast : s.trace <:+ t.trace)
    (hrequests : requestsFor ip t.trace = requestsFor ip s.trace) : ArpStep ip s t := by
  refine ⟨hpast, htime, fun _ e h => ⟨?_, ?_, hrequests⟩, fun _ h => .inl ⟨?_, hrequests⟩⟩
  · obtain ⟨honce, hused, haddress, honly⟩ := h
    constructor
    · rwa [ListedOnce, harp]
    · rwa [harp]
    · rwa [harp]
    · rwa [harp]
  · exact .inl ⟨_, _, by rw [harp]⟩
  · obtain ⟨honce, hnone⟩ := h
    constructor
    · rwa [ListedOnce, harp]
    · rwa [harp]

theorem ArpStep.refl (ip : Ip) (s : Stack) : ArpStep ip s s := .ofArp rfl rfl List.suffix_rfl rfl

theorem ArpStep.trans (h : ArpStep ip s t) (h' : ArpStep ip t u) : ArpStep ip s u := by
  have hearlier : NoEviction u.trace → NoEviction t.trace := fun hno => noEviction_suffix hno h'.past
  refine ⟨h.past.trans h'.past, h'.time.trans h.time, fun hno e hs => ?_, fun hno hs => ?_⟩
  · obtain ⟨ht, hrests, hrequests⟩ := h.slot (hearlier hno) e hs
    obtain ⟨hu, hrests', hrequests'⟩ := h'.slot hno e ht
    exact ⟨hu, hrests.trans hrests' h'.time, hrequests'.trans hrequests⟩
  · rcases h.noSlot (hearlier hno) hs with ⟨ht, hrequests⟩ | ⟨e, ht, hfresh, hone⟩
    · rcases h'.noSlot hno ht with ⟨hu, hrequests'⟩ | ⟨e, hu, hfresh, hone⟩
      · exact .inl ⟨hu, hrequests'.trans hrequests⟩
      · exact .inr ⟨e, hu, hfresh, by rw [hone, hrequests]⟩
    · obtain ⟨hu, hrests', hrequests'⟩ := h'.slot hno e ht
      exact .inr ⟨e, hu, hfresh.rests hrests' h'.time, by rw [hrequests', hone]⟩

instance (ip : Ip) : IsTrans Stack (ArpStep ip) := ⟨fun _ _ _ => ArpStep.trans⟩

theorem requestsFor_cons {frame : List UInt8} {frames : List (List UInt8)} {trace : List Event}
    (hframes : sentFrames trace = frame :: frames) (hnot : isRequestFor ip frame = false) :
    requestsFor ip trace = frames.filter (isRequestFor ip) := by
  rw [requestsFor, hframes, List.filter_cons_of_neg (by simp [hnot])]

/-- An event that is no frame. -/
theorem arpStep_observe {event : Event} (h : Event.frame event = none) (ip : Ip) (s : Stack) :
    ArpStep ip s (s.observe event) := by
  refine .ofArp rfl rfl (List.suffix_cons event s.trace) ?_
  rw [requestsFor, sentFrames, Stack.observe_trace, List.filterMap_cons_none h]
  rfl

theorem quietEvent_noFrame {event : Event} (h : QuietEvent event) : Event.frame event = none := by
  cases event with
  | gmacSend packet frame => exact h.elim
  | _ => rfl

theorem arpStep_leavesArp (h : LeavesArp s t) (ip : Ip) : ArpStep ip s t := by
  obtain ⟨new, htrace, hnew⟩ := h.trace
  refine .ofArp h.arp h.time ⟨new, htrace.symm⟩ ?_
  rw [requestsFor, htrace, sentFrames_quiet fun event he => quietEvent_noFrame (hnew event he)]
  rfl

/-- A packet is sent as IPv4. -/
theorem macSend_arpStep (p : PacketId) (mac : Mac) (ip : Ip) : Leads (ArpStep ip) (macSend p mac etherTypeIpv4) := by
  intro s
  have hdelivers : Delivers True (macSend p mac etherTypeIpv4) := macSend_delivers p mac etherTypeIpv4
  apply wp_partial (wp_and (macSend_sent p mac etherTypeIpv4 s) (hdelivers s))
  intro _ t ht
  obtain ⟨hsent, hframe⟩ := ht
  obtain ⟨new, htrace, _⟩ := hframe.trace
  refine .ofArp hsent.arp hframe.sends.time ⟨new, htrace.symm⟩ ?_
  rw [requestsFor_cons hsent.frames (isRequestFor_datagram _ _ _)]
  rfl

/-- What `send_arp_packet` adds to the requests. -/
structure Requested (ip targetIp : Ip) (arpType : ArpType) (s t : Stack) : Prop where
  arp : t.arp = s.arp
  time : t.time = s.time
  past : s.trace <:+ t.trace
  requests : (requestsFor ip t.trace).length =
    (requestsFor ip s.trace).length + if arpType = .request ∧ targetIp = ip then 1 else 0
  others : ¬ (arpType = .request ∧ targetIp = ip) → requestsFor ip t.trace = requestsFor ip s.trace

/-- A request is one for its address, and a reply is one for none. -/
theorem sendArpPacket_requests (mac : Mac) (targetIp : Ip) {arpType : ArpType} (htype : arpType = .request ∨ arpType = .reply)
    (ip : Ip) (s : Stack) :
    wp (sendArpPacket mac targetIp arpType) (fun _ t => Requested ip targetIp arpType s t) (fun _ _ => True) s := by
  cases hpool : s.freeNetworkPackets with
  | nil =>
    unfold sendArpPacket
    rw [wp_bind]
    unfold wp
    rw [allocateNetworkPacket_nil hpool]
    trivial
  | cons p rest =>
    have hdelivers : Delivers True (sendArpPacket mac targetIp arpType) := sendArpPacket_delivers mac targetIp arpType
    apply wp_partial (wp_and (sendArpPacket_sent hpool mac targetIp arpType) (hdelivers s))
    intro _ t ht
    obtain ⟨hsent, hframe⟩ := ht
    obtain ⟨new, htrace, _⟩ := hframe.trace
    have hrequest : isRequestFor ip (arpFrame s mac targetIp arpType (s.packets p)) =
        decide (arpType = .request ∧ targetIp = ip) := by
      rcases htype with rfl | rfl
      · rw [isRequestFor_request]
        simp
      · rw [isRequestFor_reply]
        simp
    refine ⟨hsent.arp, hframe.sends.time, ⟨new, htrace.symm⟩, ?_, fun hnot => ?_⟩
    · rw [requestsFor, hsent.frames, List.filter_cons, hrequest]
      split
      · next hyes =>
        rw [if_pos (of_decide_eq_true hyes)]
        rfl
      · next hno =>
        rw [if_neg (by simpa using hno)]
        rfl
    · rw [decide_eq_false hnot] at hrequest
      rw [requestsFor_cons hsent.frames hrequest]
      rfl

/-- Neither a reply nor a request for another address is one for this. -/
theorem sendArpPacket_arpStep (mac : Mac) (targetIp : Ip) {arpType : ArpType}
    (h : arpType = .reply ∨ arpType = .request ∧ targetIp ≠ ip) : Leads (ArpStep ip) (sendArpPacket mac targetIp arpType) := by
  intro s
  have htype : arpType = .request ∨ arpType = .reply := by
    rcases h with hreply | hrequest
    · exact .inr hreply
    · exact .inl hrequest.1
  have hnot : ¬ (arpType = .request ∧ targetIp = ip) := by
    rintro ⟨rfl, rfl⟩
    rcases h with hreply | hrequest
    · cases hreply
    · exact hrequest.2 rfl
  apply wp_next (sendArpPacket_requests mac targetIp htype ip s)
  intro _ t ht
  exact .ofArp ht.arp ht.time ht.past (ht.others hnot)

theorem setEntry_ip {v : ArpEntry} (hip : v.ip = (s.arp.entries x).ip) (y : ArpEntryId) :
    ((s.setEntry x v).arp.entries y).ip = (s.arp.entries y).ip := by
  rw [Stack.setEntry_arp_entries]
  by_cases hy : y = x
  · rw [hy, Function.update_self, hip]
  · rw [Function.update_of_ne hy]

/-- An assignment to an entry that leaves its address alone. -/
theorem arpStep_setEntry {v : ArpEntry} (hip : v.ip = (s.arp.entries x).ip) (hrests : Rests x s (s.setEntry x v)) (ip : Ip) :
    ArpStep ip s (s.setEntry x v) := by
  refine ⟨List.suffix_rfl, rfl, fun _ e h => ⟨?_, ?_, rfl⟩, fun _ h => .inl ⟨?_, rfl⟩⟩
  · refine ⟨h.once, h.used, by rw [setEntry_ip hip, h.address], fun y hy haddress => ?_⟩
    rw [setEntry_ip hip] at haddress
    exact h.only y hy haddress
  · by_cases he : e = x
    · rw [he]
      exact hrests
    · exact .inl ⟨_, _, Function.update_of_ne he _ _⟩
  · refine ⟨h.once, fun y hy => ?_⟩
    rw [setEntry_ip hip]
    exact h.none y hy

theorem modifyEntry_arpStep (x : ArpEntryId) {f : ArpEntry → ArpEntry}
    (hf : ∀ v, ∃ queue count, f v = { v with packetQueue := queue, packetCount := count }) (ip : Ip) :
    Leads (ArpStep ip) (modifyEntry x f) := by
  intro s
  obtain ⟨queue, count, hv⟩ := hf (s.arp.entries x)
  rw [wp_modifyEntry, hv]
  apply arpStep_setEntry
  · rfl
  · exact .inl ⟨queue, count, Function.update_self _ _ _⟩

theorem get_arpStep (ip : Ip) : Leads (ArpStep ip) (get : Net Stack) := fun s => .refl ip s

theorem pure_arpStep {α : Type} (a : α) (ip : Ip) : Leads (ArpStep ip) (pure a : Net α) := fun s => .refl ip s

theorem freeNetworkPacket_arpStep (p : PacketId) (ip : Ip) : Leads (ArpStep ip) (freeNetworkPacket p) := by
  intro s
  rw [wp_freeNetworkPacket]
  exact .ofArp rfl rfl (List.suffix_cons _ _) rfl

theorem recordWindow_arpStep (site : Site) (p : PacketId) (headerSize : Int) (ip : Ip) :
    Leads (ArpStep ip) (recordWindow site p headerSize) := fun s => arpStep_observe rfl ip s

theorem sendPacketsOnEntry_arpStep (x : ArpEntryId) (packets : List PacketId) (ip : Ip) :
    Leads (ArpStep ip) (sendPacketsOnEntry x packets) := by
  induction packets with
  | nil => exact pure_arpStep () ip
  | cons p rest ih =>
    have hpop : Leads (ArpStep ip) (modifyEntry x fun v => { v with packetQueue := rest }) :=
      modifyEntry_arpStep x (fun v => ⟨rest, v.packetCount, rfl⟩) ip
    exact .bind hpop fun _ => .bind (get_arpStep ip) fun _ => .bind (macSend_arpStep _ _ ip) fun _ => ih

theorem updateArpMapping_arpStep (ip' : Ip) (mac : Mac) (ip : Ip) : Leads (ArpStep ip) (updateArpMapping ip' mac true) := by
  intro s
  unfold updateArpMapping findArpEntry
  simp only [wp_bind, wp_get, wp_pure]
  split
  · exact .refl ip s
  · next x hfound =>
    simp only [wp_bind, wp_get, wp_ite, wp_pure, true_and]
    split
    · exact .refl ip s
    · next hinvalid =>
      have hseen := arpStep_observe (show Event.frame (.arpMapped ip' mac) = none from rfl) ip s
      have hmapped : ArpStep ip (s.observe (.arpMapped ip' mac)) (mapped x ip' mac s) := by
        apply arpStep_setEntry
        · rfl
        · refine .inr ⟨Bool.eq_false_iff.mpr hinvalid, ?_, ?_⟩
          · simp
          · simp
      simp only [wp_getTime, wp_emit, wp_modifyEntry]
      apply wp_next (sendPacketsOnEntry_arpStep x _ ip _)
      intro _ t ht
      exact (hseen.trans hmapped).trans ht

theorem handleArp_arpStep (p : PacketId) (ip : Ip) : Leads (ArpStep ip) (handleArp p) := by
  have hfree := freeNetworkPacket_arpStep p ip
  have hreply : ∀ mac targetIp, Leads (ArpStep ip) (sendArpPacket mac targetIp .reply) := fun mac targetIp =>
    sendArpPacket_arpStep mac targetIp (.inl rfl)
  exact .bind (fun s => .refl ip s) fun _ => .ite hfree (.bind (recordWindow_arpStep _ _ _ ip) fun _ =>
    .ite hfree (.bind (get_arpStep ip) fun _ => .ite (.ite (.bind (updateArpMapping_arpStep _ _ ip) fun _ => hfree) hfree)
      (.ite (.ite (.bind (hreply _ _) fun _ => hfree) hfree) hfree)))

theorem appendToArpEntryQueue_arpStep (p : PacketId) (x : ArpEntryId) (ip : Ip) :
    Leads (ArpStep ip) (appendToArpEntryQueue p x) :=
  .bind (modifyEntry_arpStep x (fun _ => ⟨_, _, rfl⟩) ip) fun _ => recordWindow_arpStep _ _ _ ip

theorem addToArpEntryQueue_arpStep (p : PacketId) (x : ArpEntryId) (ip : Ip) :
    Leads (ArpStep ip) (addToArpEntryQueue p x) := by
  have happend := appendToArpEntryQueue_arpStep p x ip
  refine .bind (get_arpStep ip) fun _ => .ite (.bind (get_arpStep ip) fun s => ?_) happend
  split
  · exact .throw _
  · next old rest _ =>
    have hpop : Leads (ArpStep ip) (modifyEntry x fun v => { v with packetQueue := rest }) :=
      modifyEntry_arpStep x (fun v => ⟨rest, v.packetCount, rfl⟩) ip
    have hcount : Leads (ArpStep ip) (modifyEntry x fun v => { v with packetCount := v.packetCount - 1 }) :=
      modifyEntry_arpStep x (fun v => ⟨v.packetQueue, v.packetCount - 1, rfl⟩) ip
    exact .bind hpop fun _ => .bind (freeNetworkPacket_arpStep _ ip) fun _ => .bind hcount fun _ => happend

/-- A free entry has been taken for the address. -/
def allocatedFor (x : ArpEntryId) (rest : List ArpEntryId) (ip : Ip) (s : Stack) : Stack :=
  (s.setEntry x { s.arp.entries x with
    ip := ip, containValidMapping := false, time := s.time, retryCount := 0, packetCount := 0 }).setEntryLists rest
      (s.arp.usedEntries ++ [x])

theorem allocatedFor_entry (x : ArpEntryId) (rest : List ArpEntryId) (ip : Ip) (s : Stack) :
    (allocatedFor x rest ip s).arp.entries x = { s.arp.entries x with
      ip := ip, containValidMapping := false, time := s.time, retryCount := 0, packetCount := 0 } :=
  Function.update_self _ _ _

theorem allocatedFor_other {y : ArpEntryId} (hy : y ≠ x) (rest : List ArpEntryId) (ip : Ip) (s : Stack) :
    (allocatedFor x rest ip s).arp.entries y = s.arp.entries y := Function.update_of_ne hy _ _

section Taken

variable {rest : List ArpEntryId}

theorem ListedOnce.taken (h : ListedOnce s) (hfree : s.arp.freeEntries = x :: rest) (ip : Ip) :
    ListedOnce (allocatedFor x rest ip s) ∧ x ∉ s.arp.usedEntries := by
  unfold ListedOnce at h
  rw [hfree, List.cons_append, List.nodup_cons, List.mem_append, not_or] at h
  obtain ⟨⟨hrest, hused⟩, hnodup⟩ := h
  refine ⟨?_, hused⟩
  show (rest ++ (s.arp.usedEntries ++ [x])).Nodup
  rw [← List.append_assoc, List.nodup_append_comm, List.singleton_append, List.nodup_cons, List.mem_append, not_or]
  exact ⟨⟨hrest, hused⟩, hnodup⟩

/-- An entry for another address is taken. -/
theorem allocatedFor_arpStep (hfree : s.arp.freeEntries = x :: rest) (hother : ip' ≠ ip) :
    ArpStep ip s (allocatedFor x rest ip' s) := by
  have hkept : ∀ y ∈ (allocatedFor x rest ip' s).arp.usedEntries, ((allocatedFor x rest ip' s).arp.entries y).ip = ip →
      y ∈ s.arp.usedEntries ∧ (s.arp.entries y).ip = ip := by
    intro y hy haddress
    by_cases hyx : y = x
    · rw [hyx, allocatedFor_entry] at haddress
      exact absurd haddress hother
    · rw [allocatedFor_other hyx] at haddress
      have hmem : y ∈ s.arp.usedEntries ∨ y = x := by simpa [allocatedFor] using hy
      exact ⟨hmem.resolve_right hyx, haddress⟩
  refine ⟨List.suffix_rfl, rfl, fun _ e h => ?_, fun _ h => .inl ⟨?_, rfl⟩⟩
  · obtain ⟨honce, hnot⟩ := h.once.taken hfree ip'
    have hne : e ≠ x := by
      rintro rfl
      exact hnot h.used
    refine ⟨⟨honce, ?_, ?_, fun y hy haddress => ?_⟩, .inl ⟨_, _, allocatedFor_other hne rest ip' s⟩, rfl⟩
    · exact List.mem_append_left [x] h.used
    · rw [allocatedFor_other hne, h.address]
    · obtain ⟨hmem, hip⟩ := hkept y hy haddress
      exact h.only y hmem hip
  · refine ⟨(h.once.taken hfree ip').1, fun y hy haddress => ?_⟩
    obtain ⟨hmem, hip⟩ := hkept y hy haddress
    exact h.none y hmem hip

theorem allocatedFor_slot (h : NoSlot ip s) (hfree : s.arp.freeEntries = x :: rest) : Slot x ip (allocatedFor x rest ip s) := by
  refine ⟨(h.once.taken hfree ip).1, ?_, by rw [allocatedFor_entry], fun y hy haddress => ?_⟩
  · exact List.mem_append_right s.arp.usedEntries (List.mem_singleton_self x)
  · by_contra hne
    rw [allocatedFor_other hne] at haddress
    have hmem : y ∈ s.arp.usedEntries ∨ y = x := by simpa [allocatedFor] using hy
    exact h.none y (hmem.resolve_right hne) haddress

/-- `allocate_entry`, and what `arp_send` assigns after it. -/
theorem allocateEntry_allocatedFor (hfree : s.arp.freeEntries = x :: rest) (ip : Ip) :
    wp allocateEntry (fun y t => y = x ∧ t.setEntry x { t.arp.entries x with
      ip := ip, containValidMapping := false, time := t.time } = allocatedFor x rest ip s) (fun _ _ => True) s := by
  unfold allocateEntry takeEntry
  simp only [wp_bind, wp_get, hfree, wp_modify, wp_modifyEntry, wp_pure, true_and]
  simp [Stack.setEntry, Stack.setEntryLists, allocatedFor, Function.update_idem]

/-- What comes after the entry has been taken. -/
def sendFirst (p : PacketId) (ip : Ip) (x : ArpEntryId) : Net Unit := do
  addToArpEntryQueue p x
  sendArpPacket zeroMac ip .request

theorem sendFirst_arpStep (p : PacketId) (hother : ip' ≠ ip) (x : ArpEntryId) : Leads (ArpStep ip) (sendFirst p ip' x) :=
  .bind (addToArpEntryQueue_arpStep p x ip) fun _ => sendArpPacket_arpStep _ _ (.inr ⟨rfl, hother⟩)

/-- The first packet for the address is sent for. -/
theorem sendFirst_allocates (p : PacketId) (h : NoSlot ip s) (hfree : s.arp.freeEntries = x :: rest) :
    wp (sendFirst p ip x) (fun _ t => ArpStep ip s t) (fun _ _ => True) (allocatedFor x rest ip s) := by
  have hslot := allocatedFor_slot h hfree
  have hfresh : JustAllocated x (allocatedFor x rest ip s) := by
    constructor
    · rw [allocatedFor_entry]
      rfl
    · rw [allocatedFor_entry]
      exact fun _ => rfl
  unfold sendFirst
  rw [wp_bind]
  apply wp_next (addToArpEntryQueue_arpStep p x ip _)
  intro _ t ht
  apply wp_next (sendArpPacket_requests zeroMac ip (.inl rfl) ip t)
  intro _ u hu
  refine ⟨ht.past.trans hu.past, hu.time.trans ht.time, fun hno e hs => ?_, fun hno _ => .inr ⟨x, ?_⟩⟩
  · exact absurd hs.address (h.none e hs.used)
  · obtain ⟨hslot', hrests, hrequests⟩ := ht.slot (noEviction_suffix hno hu.past) x hslot
    have hfresh' := hfresh.rests hrests ht.time
    obtain ⟨honce, hused, haddress, honly⟩ := hslot'
    refine ⟨⟨?_, ?_, ?_, ?_⟩, ⟨?_, ?_⟩, ?_⟩
    · rwa [ListedOnce, hu.arp]
    · rwa [hu.arp]
    · rwa [hu.arp]
    · rwa [hu.arp]
    · rw [hu.arp, hu.time]
      exact hfresh'.time
    · rw [hu.arp]
      exact hfresh'.count
    · rw [hu.requests, if_pos ⟨rfl, rfl⟩, hrequests]
      rfl

end Taken

theorem sendFirst_delivers (p : PacketId) (ip : Ip) (x : ArpEntryId) : Delivers False (sendFirst p ip x) :=
  .bind (addToArpEntryQueue_delivers p x) fun _ => sendArpPacket_delivers _ _ _

/-- Nothing is said of a table that an eviction has left broken. -/
theorem arpStep_broken (hframe : DeliverFrame False s t) (h : NoEviction t.trace → ¬ ListedOnce s) (ip : Ip) :
    ArpStep ip s t := by
  obtain ⟨new, htrace, _⟩ := hframe.trace
  refine ⟨⟨new, htrace.symm⟩, hframe.sends.time, fun hno e hs => ?_, fun hno hs => ?_⟩
  · exact absurd hs.once (h hno)
  · exact absurd hs.once (h hno)

/-- The address is unknown: an entry is taken, or one is evicted. -/
theorem arpSend_unknown (p : PacketId) (hunknown : ∀ y ∈ s.arp.usedEntries, (s.arp.entries y).ip ≠ ip') (ip : Ip) :
    wp allocateEntry (fun x t => wp (sendFirst p ip' x) (fun _ u => ArpStep ip s u) (fun _ _ => True)
      (t.setEntry x { t.arp.entries x with ip := ip', containValidMapping := false, time := t.time }))
      (fun _ _ => True) s := by
  cases hfree : s.arp.freeEntries with
  | cons x rest =>
    apply wp_next (allocateEntry_allocatedFor hfree ip')
    intro y t ht
    obtain ⟨rfl, hstate⟩ := ht
    rw [hstate]
    by_cases hother : ip' = ip
    · subst hother
      by_cases honce : ListedOnce s
      · exact sendFirst_allocates p ⟨honce, hunknown⟩ hfree
      · apply wp_partial (sendFirst_delivers p ip' y _)
        intro _ u hu
        have htaken : DeliverFrame False s (allocatedFor y rest ip' s) := .assign rfl (fun hf => hf.elim) rfl
        exact arpStep_broken (htaken.trans hu) (fun _ => honce) ip'
    · apply wp_next (sendFirst_arpStep p hother y _)
      intro _ u hu
      exact (allocatedFor_arpStep hfree hother).trans hu
  | nil =>
    unfold allocateEntry
    simp only [wp_bind, wp_get, hfree]
    split
    · trivial
    · next x _ _ =>
      have hseen : DeliverFrame False s (s.observe (.arpEvicted x)) := .observe trivial
      simp only [wp_bind, wp_emit]
      apply wp_partial (freeEntry_delivers x _)
      intro _ t ht
      apply wp_partial (takeEntry_delivers x t)
      intro y u hu
      apply wp_partial (sendFirst_delivers p ip' y _)
      intro _ v hv
      have hassigned : DeliverFrame False u (u.setEntry y { u.arp.entries y with
        ip := ip', containValidMapping := false, time := u.time }) := .assign rfl (fun hf => hf.elim) rfl
      have hlater := (ht.trans hu).trans (hassigned.trans hv)
      obtain ⟨new, htrace, _⟩ := hlater.trace
      refine arpStep_broken (hseen.trans hlater) (fun hno _ => hno x ?_) ip
      rw [htrace]
      exact List.mem_append_right new List.mem_cons_self

/-- One call of `arp_send`, for any address. -/
theorem arpSend_arpStep (p : PacketId) (ip' ip : Ip) : Leads (ArpStep ip) (arpSend p ip') := by
  intro s
  have hseen := arpStep_observe (show Event.frame (.arpSend p ip') = none from rfl) ip s
  have hcontinues : ∀ {x : Net Unit}, wp x (fun _ t => ArpStep ip (s.observe (.arpSend p ip')) t) (fun _ _ => True)
      (s.observe (.arpSend p ip')) → wp x (fun _ t => ArpStep ip s t) (fun _ _ => True) (s.observe (.arpSend p ip')) :=
    fun hx => wp_next hx fun _ t ht => hseen.trans ht
  unfold arpSend findArpEntry
  simp only [wp_bind, wp_emit, wp_get, wp_pure]
  split
  · simp only [wp_bind, wp_get, wp_ite]
    split
    · exact hcontinues (macSend_arpStep _ _ ip _)
    · exact hcontinues (addToArpEntryQueue_arpStep _ _ ip _)
  · next hnone =>
    have hunknown : ∀ y ∈ (s.observe (.arpSend p ip')).arp.usedEntries,
        ((s.observe (.arpSend p ip')).arp.entries y).ip ≠ ip' := by simpa using hnone
    simp only [wp_bind]
    apply wp_next (arpSend_unknown p hunknown ip)
    intro x t ht
    simp only [wp_getTime, wp_modifyEntry]
    unfold sendFirst at ht
    rw [wp_bind] at ht
    apply wp_next ht
    intro _ u hu
    apply wp_next hu
    intro _ v hv
    exact hseen.trans hv

/-- The step of every operation but the poll. -/
theorem arpStep_tolerant (ip : Ip) : Tolerant (ArpStep ip) where
  refl := .refl ip
  trans _ _ _ := .trans
  leavesArp _ _ h := arpStep_leavesArp h ip
  macSend packet mac := macSend_arpStep packet mac ip
  arpSend packet ip' := arpSend_arpStep packet ip' ip
  handleArp packet := handleArp_arpStep packet ip

/-- Every operation but the poll of the table and the clock. -/
theorem exec_arpStep {op : Op} (h : ¬ Op.TouchesTimers op) (ip : Ip) : Leads (ArpStep ip) op.exec :=
  exec_composed h (ArpStep ip) (arpStep_tolerant ip)

end MiniIp.Invariant
