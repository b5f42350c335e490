import MiniIp.Invariant.Frame
import MiniIp.Invariant.Headers
import MiniIp.Library.TwoRuns

/-!
# From a packet's last layer to the driver

A packet that the IP layer has finished is handed to `gmac_send` with a MAC header in front, at once or
out of the queue of an ARP entry. Until then nobody reads or writes it:
two runs that differ in the bytes outside its window go on in lockstep until it is
handed over or freed, and then its frame is the same in both.
-/

set_option autoImplicit false

namespace MiniIp.Invariant

open MiniIp.Source MiniIp.Library.Wp MiniIp.Library.TwoRuns

/-- What first becomes of a packet. -/
inductive Fate where
  | waiting | freed
  | sent (frame : List UInt8)
  deriving DecidableEq

def Fate.after (p : PacketId) : Fate → Event → Fate
  | .waiting, .freed q => if q = p then .freed else .waiting
  | .waiting, .gmacSend q frame => if q = p then .sent frame else .waiting
  | fate, _ => fate

/-- The fate of a packet in a list of events, newest first. -/
def fate (p : PacketId) : List Event → Fate
  | [] => .waiting
  | event :: past => (fate p past).after p event

/-- The event says nothing about the packet. -/
def Quiet (p : PacketId) (event : Event) : Prop := Fate.waiting.after p event = .waiting

/-- The frame of an IP packet. -/
def Framed (k : NetworkPacket) (frame : List UInt8) : Prop :=
  ∃ mac ourMac, frame = (macFramed mac ourMac etherTypeIpv4 k).payload

/-- Nothing but an ARP entry or a local variable has the packet. -/
structure Waits (p : PacketId) (k : NetworkPacket) (s : Stack) : Prop where
  content : s.packets p = k
  free : p ∉ s.freeNetworkPackets
  rx : ∀ i, s.gmac.rxPackets i ≠ some p
  udp : ∀ c, p ∉ (s.udp.connections c).packetQueue

variable {p q : PacketId} {k k' : NetworkPacket} {base new past : List Event} {event : Event} {s t : Stack}

theorem fate_append_waiting (h : fate p past = .waiting) : fate p (new ++ past) = fate p new := by
  induction new with
  | nil => exact h
  | cons event new ih => simp only [List.cons_append, fate, ih]

theorem Fate.after_gone {f : Fate} (h : f ≠ .waiting) (event : Event) : f.after p event = f := by
  cases f with
  | waiting => exact absurd rfl h
  | freed => rfl
  | sent frame => rfl

/-- What has become of a packet stays so. -/
theorem fate_append_gone (h : fate p past ≠ .waiting) : fate p (new ++ past) = fate p past := by
  induction new with
  | nil => rfl
  | cons event new ih =>
    rw [List.cons_append, fate, ih]
    exact Fate.after_gone h event

theorem fate_cons_quiet (h : Quiet p event) (hpast : fate p past = .waiting) :
    fate p (event :: past) = .waiting := by
  rw [fate, hpast]
  exact h

/-- The second run has other bytes outside the window of the packet. The runs part where the packet is
handed over, with the same frame, or freed. -/
def overwritten (p : PacketId) (k k' : NetworkPacket) (base : List Event) : Comparison Stack where
  together s s' := s' = s.write p k' ∧ SameWindow k k' ∧ Waits p k s ∧
    ∃ new, s.trace = new ++ base ∧ fate p new = .waiting
  parted s s' := ∃ new new', s.trace = new ++ base ∧ s'.trace = new' ++ base ∧ fate p new ≠ .waiting ∧
    fate p new' = fate p new ∧ ∀ frame, fate p new = .sent frame → Framed k frame
  later s t := s.trace <:+ t.trace
  refl _ := List.suffix_rfl
  trans h h' := h.trans h'
  stable := by
    rintro s s' t t' ⟨new, new', hs, hs', hgone, hsame, hframed⟩ ⟨more, hmore⟩ ⟨more', hmore'⟩
    have hkept : fate p (more ++ new) = fate p new := fate_append_gone hgone
    have hkept' : fate p (more' ++ new') = fate p new' := fate_append_gone (hsame ▸ hgone)
    refine ⟨more ++ new, more' ++ new', ?_, ?_, ?_, ?_, ?_⟩
    · rw [← hmore, hs, List.append_assoc]
    · rw [← hmore', hs', List.append_assoc]
    · rw [hkept]
      exact hgone
    · rw [hkept, hkept', hsame]
    · rw [hkept]
      exact hframed

/-- A computation that does not look at the bytes outside the window of a waiting packet. -/
abbrev Blind {α : Type} (p : PacketId) (k k' : NetworkPacket) (base : List Event) (c : Prop) (x : Net α) : Prop :=
  Lockstep (overwritten p k k' base) c (fun _ => True) x

section Steps

variable {c : Prop}

/-- An assignment that neither writes nor stores packets. -/
theorem assign_blind {f : Stack → Stack} (hcommutes : ∀ s, f (s.write p k') = (f s).write p k')
    (hkept : ∀ s, ((f s).packets, (f s).freeNetworkPackets, (f s).gmac.rxPackets, (f s).udp.connections,
        (f s).trace) =
      (s.packets, s.freeNetworkPackets, s.gmac.rxPackets, s.udp.connections, s.trace)) :
    Blind p k k' base c (modify f : Net Unit) := by
  apply Lockstep.modify
  · intro s
    have hs := hkept s
    simp only [Prod.mk.injEq] at hs
    show s.trace <:+ (f s).trace
    exact hs.2.2.2.2 ▸ List.suffix_rfl
  · trivial
  · rintro _ s s' ⟨rfl, hsame, hwaits, new, htrace, hnew⟩
    have hs := hkept s
    simp only [Prod.mk.injEq] at hs
    obtain ⟨hpackets, hfree, hrx, hudp, htrace'⟩ := hs
    refine ⟨hcommutes s, hsame, ⟨?_, ?_, ?_, ?_⟩, new, ?_, hnew⟩
    · rw [hpackets]
      exact hwaits.content
    · rw [hfree]
      exact hwaits.free
    · rw [hrx]
      exact hwaits.rx
    · rw [hudp]
      exact hwaits.udp
    · rw [htrace']
      exact htrace

theorem emit_blind (h : c → Quiet p event) : Blind p k k' base c (emit event) := by
  apply Lockstep.modify
  · intro s
    exact List.suffix_cons _ _
  · trivial
  · rintro hc s s' ⟨rfl, hsame, hwaits, new, htrace, hnew⟩
    refine ⟨rfl, hsame, ⟨hwaits.content, hwaits.free, hwaits.rx, hwaits.udp⟩, event :: new, ?_, ?_⟩
    · rw [Stack.observe_trace, htrace, List.cons_append]
    · exact fate_cons_quiet (h hc) hnew

/-- What is read from the state is no packet. -/
theorem read_blind {α : Type} {V : α → Prop} {f : Stack → Net α} (hsame : ∀ s, f (s.write p k') = f s)
    (hf : ∀ s, Lockstep (overwritten p k k' base) c V (f s)) :
    Lockstep (overwritten p k k' base) c V (get >>= f) := by
  apply Lockstep.read
  · rintro _ s s' ⟨rfl, _⟩
    exact hsame s
  · exact hf

/-- The packet waits in the state that is read. -/
theorem readWaits_blind {α : Type} {V : α → Prop} {f : Stack → Net α} (hsame : ∀ s, f (s.write p k') = f s)
    (hf : ∀ s, Lockstep (overwritten p k k' base) (c ∧ Waits p k s) V (f s)) :
    Lockstep (overwritten p k k' base) c V (get >>= f) := by
  apply Lockstep.readWith (A := Waits p k)
  · rintro _ s s' ⟨rfl, _, hwaits, _⟩
    exact ⟨hsame s, hwaits⟩
  · exact hf

theorem pure_blind {α : Type} (a : α) : Blind p k k' base c (pure a : Net α) := .pure fun _ => trivial

theorem getPacket_blind (h : c → q ≠ p) : Blind p k k' base c (getPacket q) := by
  apply Lockstep.read
  · rintro hc s s' ⟨rfl, _⟩
    rw [Stack.write_packets, Function.update_of_ne (h hc)]
  · intro s
    exact pure_blind _

theorem modifyPacket_blind (h : c → q ≠ p) (f : NetworkPacket → NetworkPacket) :
    Blind p k k' base c (modifyPacket q f) := by
  apply Lockstep.modify
  · intro s
    exact List.suffix_rfl
  · trivial
  · rintro hc s s' ⟨rfl, hsame, hwaits, hnew⟩
    have hne := h hc
    refine ⟨?_, hsame, ⟨?_, hwaits.free, hwaits.rx, hwaits.udp⟩, hnew⟩
    · simp only [Stack.write, Function.update_of_ne hne, Function.update_comm hne]
    · rw [Stack.write_packets, Function.update_of_ne hne.symm]
      exact hwaits.content

/-- The window is the same in both runs. -/
theorem recordWindow_blind (site : Site) (q : PacketId) (headerSize : Int) :
    Blind p k k' base c (recordWindow site q headerSize) := by
  constructor
  · intro s
    exact List.suffix_cons _ _
  · rintro _ s s' ⟨rfl, hsame, hwaits, new, htrace, hnew⟩
    have hplace : ((s.write p k').packets q).index = (s.packets q).index ∧
        ((s.write p k').packets q).length = (s.packets q).length := by
      by_cases hq : q = p
      · subst hq
        rw [Stack.write_packets, Function.update_self, hwaits.content]
        exact ⟨hsame.index, hsame.length⟩
      · rw [Stack.write_packets, Function.update_of_ne hq]
        exact ⟨rfl, rfl⟩
    have hrun : ∀ u : Stack, recordWindow site q headerSize u = .ok ()
        (u.observe (.window site (u.packets q).index (u.packets q).length headerSize)) := fun _ => rfl
    rw [hrun, hrun, hplace.1, hplace.2]
    apply Meets.returned trivial
    refine ⟨rfl, hsame, ⟨hwaits.content, hwaits.free, hwaits.rx, hwaits.udp⟩,
      .window site (s.packets q).index (s.packets q).length headerSize :: new, ?_, ?_⟩
    · rw [Stack.observe_trace, htrace, List.cons_append]
    · exact fate_cons_quiet rfl hnew

theorem modifyConnection_blind {connection : UdpConnectionId} {f : UdpConnection → UdpConnection}
    (hf : c → ∀ v, p ∉ v.packetQueue → p ∉ (f v).packetQueue) :
    Blind p k k' base c (modifyConnection connection f) := by
  apply Lockstep.modify
  · intro s
    exact List.suffix_rfl
  · trivial
  · rintro hc s s' ⟨rfl, hsame, hwaits, hnew⟩
    refine ⟨rfl, hsame, ⟨hwaits.content, hwaits.free, hwaits.rx, ?_⟩, hnew⟩
    intro a
    by_cases ha : a = connection
    · rw [ha, Stack.setConnection_udp_connections, Function.update_self]
      exact hf hc _ (hwaits.udp connection)
    · rw [Stack.setConnection_udp_connections, Function.update_of_ne ha]
      exact hwaits.udp a

theorem setRxPacket_blind {slot : Fin 32} (h : c → q ≠ p) :
    Blind p k k' base c (modify fun s => s.setRxPacket slot q : Net Unit) := by
  apply Lockstep.modify
  · intro s
    exact List.suffix_rfl
  · trivial
  · rintro hc s s' ⟨rfl, hsame, hwaits, hnew⟩
    refine ⟨rfl, hsame, ⟨hwaits.content, hwaits.free, ?_, hwaits.udp⟩, hnew⟩
    intro i
    by_cases hi : i = slot
    · rw [hi, Stack.setRxPacket_gmac_rxPackets, Function.update_self]
      intro heq
      exact h hc (Option.some.inj heq)
    · rw [Stack.setRxPacket_gmac_rxPackets, Function.update_of_ne hi]
      exact hwaits.rx i

/-- Where the packet itself is freed, the runs part. -/
theorem freeNetworkPacket_blind (q : PacketId) : Blind p k k' base c (freeNetworkPacket q) := by
  constructor
  · intro s
    exact List.suffix_cons _ _
  · rintro _ s s' ⟨rfl, hsame, hwaits, new, htrace, hnew⟩
    by_cases hq : q = p
    · subst hq
      apply Meets.parted
      have hfate : fate q (.freed q :: new) = .freed := by simp [fate, hnew, Fate.after]
      refine ⟨.freed q :: new, .freed q :: new, ?_, ?_, ?_, rfl, ?_⟩
      · show .freed q :: s.trace = _
        rw [htrace, List.cons_append]
      · show .freed q :: s.trace = _
        rw [htrace, List.cons_append]
      · simp [hfate]
      · simp [hfate]
    · apply Meets.returned trivial
      refine ⟨rfl, hsame, ⟨hwaits.content, ?_, hwaits.rx, hwaits.udp⟩, .freed q :: new, ?_, ?_⟩
      · show p ∉ q :: s.freeNetworkPackets
        rw [List.mem_cons, not_or]
        exact ⟨fun heq => hq heq.symm, hwaits.free⟩
      · show .freed q :: s.trace = _
        rw [htrace, List.cons_append]
      · apply fate_cons_quiet _ hnew
        simp [Quiet, Fate.after, hq]

/-- A packet as `allocate_network_packet` returns it. -/
def emptied (old : NetworkPacket) : NetworkPacket := { old with length := 0, index := networkPacketHeaderSize }

theorem allocateNetworkPacket_nil (h : s.freeNetworkPackets = []) :
    allocateNetworkPacket s = .error .poolEmpty s := by
  have hstops : wp allocateNetworkPacket (fun _ _ => False) (fun e t => e = .poolEmpty ∧ t = s) s := by
    unfold allocateNetworkPacket
    rw [wp_bind, wp_get, h]
    exact ⟨rfl, rfl⟩
  obtain ⟨e, t, hrun, rfl, rfl⟩ := stops_of_wp hstops
  exact hrun

theorem allocateNetworkPacket_cons {rest : List PacketId} (h : s.freeNetworkPackets = q :: rest) :
    allocateNetworkPacket s = .ok q ((s.setPool rest).write q (emptied (s.packets q))) := by
  have hreturns : wp allocateNetworkPacket
      (fun a t => a = q ∧ t = (s.setPool rest).write q (emptied (s.packets q))) (fun _ _ => False) s := by
    unfold allocateNetworkPacket
    rw [wp_bind, wp_get, h]
    exact ⟨rfl, rfl⟩
  obtain ⟨a, t, hrun, rfl, rfl⟩ := returns_of_wp hreturns
  exact hrun

/-- The packet that waits is not in the pool. -/
theorem allocateNetworkPacket_blind :
    Lockstep (overwritten p k k' base) c (fun q => q ≠ p) allocateNetworkPacket := by
  constructor
  · intro s
    cases hpool : s.freeNetworkPackets with
    | nil =>
      rw [allocateNetworkPacket_nil hpool]
      exact List.suffix_rfl
    | cons q rest =>
      rw [allocateNetworkPacket_cons hpool]
      exact List.suffix_rfl
  · rintro _ s s' ⟨rfl, hsame, hwaits, hnew⟩
    have hfree := hwaits.free
    cases hpool : s.freeNetworkPackets with
    | nil =>
      have hpool' : (s.write p k').freeNetworkPackets = [] := hpool
      rw [allocateNetworkPacket_nil hpool, allocateNetworkPacket_nil hpool']
      exact .stopped ⟨rfl, hsame, hwaits, hnew⟩
    | cons q rest =>
      have hpool' : (s.write p k').freeNetworkPackets = q :: rest := hpool
      rw [hpool, List.mem_cons, not_or] at hfree
      have hne : q ≠ p := fun heq => hfree.1 heq.symm
      rw [allocateNetworkPacket_cons hpool, allocateNetworkPacket_cons hpool']
      refine Meets.returned (V := fun a => a ≠ p) hne ?_
      refine ⟨?_, hsame, ⟨?_, hfree.2, hwaits.rx, hwaits.udp⟩, hnew⟩
      · simp only [Stack.write, Stack.setPool, Function.update_of_ne hne, Function.update_comm hne]
      · rw [Stack.write_packets, Function.update_of_ne hne.symm]
        exact hwaits.content

end Steps

/-- A packet has been handed to `gmac_send` with this frame. -/
def Handed (p : PacketId) (frame : List UInt8) (s t : Stack) : Prop :=
  ∃ new, t.trace = new ++ s.trace ∧ fate p new = .sent frame

theorem Handed.later {frame : List UInt8} {u : Stack} (h : Handed p frame s t) (hlater : t.trace <:+ u.trace) :
    Handed p frame s u := by
  obtain ⟨new, htrace, hfate⟩ := h
  obtain ⟨more, hmore⟩ := hlater
  refine ⟨more ++ new, ?_, ?_⟩
  · rw [← hmore, htrace, List.append_assoc]
  · rw [fate_append_gone (by rw [hfate]; simp), hfate]

theorem Handed.before {frame : List UInt8} {events : List Event} {u : Stack} (h : Handed p frame t u)
    (htrace : t.trace = events ++ s.trace) (hquiet : fate p events = .waiting) : Handed p frame s u := by
  obtain ⟨new, hnew, hfate⟩ := h
  refine ⟨new ++ events, ?_, ?_⟩
  · rw [hnew, htrace, List.append_assoc]
  · rw [fate_append_waiting hquiet, hfate]

/-- The frame is handed over, however `gmac_send` goes on. -/
theorem macSend_handed (p : PacketId) (mac : Mac) (etherType : UInt16) :
    wp (macSend p mac etherType)
      (fun _ t => Handed p (macFramed mac s.ourMac etherType (s.packets p)).payload s t)
      (fun _ t => Handed p (macFramed mac s.ourMac etherType (s.packets p)).payload s t) s := by
  unfold macSend gmacSend
  simp only [wp_bind, wp_modifyPacket, wp_recordWindow, wp_get, wp_emit, wp_getPacket, wp_ite, wp_throw,
    Stack.write_packets, Stack.observe_packets, Function.update_self]
  let frame := (macFramed mac s.ourMac etherType (s.packets p)).payload
  have hframe : ∀ (later : List Event) (index length index' length' : Int),
      fate p (later ++ [.gmacSend p frame, .window .gmacSend index length 0, .macSend p mac etherType,
        .window .macSend index' length' macHeaderSize]) = .sent frame := by
    intro later index length index' length'
    have hsent : fate p [.gmacSend p frame, .window .gmacSend index length 0, .macSend p mac etherType,
        .window .macSend index' length' macHeaderSize] = .sent frame := by
      simp [fate, Fate.after]
    rw [fate_append_gone (by rw [hsent]; simp), hsent]
  split
  · exact ⟨_, rfl, hframe [] _ _ _ _⟩
  · split
    · exact ⟨_, rfl, hframe [.freed p] _ _ _ _⟩
    · split
      · exact ⟨_, rfl, hframe [] _ _ _ _⟩
      · next old _ =>
        simp only [wp_bind, wp_freeNetworkPacket, wp_modify, wp_getPacket]
        exact ⟨_, rfl, hframe [.freed old] _ _ _ _⟩

theorem final_of_wp {α : Type} {x : Net α} {P : Stack → Prop} (h : wp x (fun _ t => P t) (fun _ t => P t) s) :
    P (final (x s)) := by
  unfold wp at h
  unfold final
  cases hx : x s with
  | ok a t =>
    rw [hx] at h
    exact h
  | error e t =>
    rw [hx] at h
    exact h

theorem wp_of_final {α : Type} {x : Net α} {P : Stack → Prop} (h : P (final (x s))) :
    wp x (fun _ t => P t) (fun _ t => P t) s := by
  unfold final at h
  unfold wp
  cases hx : x s with
  | ok a t =>
    rw [hx] at h
    exact h
  | error e t =>
    rw [hx] at h
    exact h

/-- A frame that extends the trace of a computation that only sends. -/
theorem Sends.suffix {α : Type} {arpKept : Prop} {x : Net α} (h : Sends arpKept x) (s : Stack) :
    s.trace <:+ (final (x s)).trace := by
  apply final_of_wp (P := fun t => s.trace <:+ t.trace)
  apply wp_mono (h s)
  · intro _ t ht
    obtain ⟨new, htrace, _⟩ := ht.trace
    exact ⟨new, htrace.symm⟩
  · intro _ t ht
    obtain ⟨new, htrace, _⟩ := ht.1.trace
    exact ⟨new, htrace.symm⟩

section Steps

variable {c : Prop}

theorem gmacSend_blind (h : c → q ≠ p) : Blind p k k' base c (gmacSend q) := by
  refine .bind (recordWindow_blind _ _ _) fun _ => .bind (getPacket_blind h) fun content =>
    .bind (emit_blind fun hc => by simp [Quiet, Fate.after, h hc]) fun _ => read_blind (fun _ => rfl) fun s =>
    read_blind (fun _ => rfl) fun s' => .ite (fun _ => .throw _) fun _ => read_blind (fun _ => rfl) fun u =>
    .ite (fun _ => freeNetworkPacket_blind q) fun _ => read_blind (fun _ => rfl) fun v => ?_
  split
  · exact .throw _
  · exact .bind (freeNetworkPacket_blind _) fun _ => .bind (assign_blind (fun _ => rfl) fun _ => rfl) fun _ =>
      .bind (getPacket_blind h) fun _ => .bind (assign_blind (fun _ => rfl) fun _ => rfl) fun _ =>
      assign_blind (fun _ => rfl) fun _ => rfl

/-- Where the packet itself is sent, the runs part, with the same frame. -/
theorem macSend_blind {mac : Mac} {etherType : UInt16} (h : c → q = p → etherType = etherTypeIpv4) :
    Blind p k k' base c (macSend q mac etherType) := by
  by_cases hq : q = p
  · subst hq
    constructor
    · exact (macSend_delivers q mac etherType : Delivers True _).sends.suffix
    · rintro hc s s' ⟨rfl, hsame, hwaits, past, htrace, hpast⟩
      rw [h hc rfl]
      obtain ⟨new, hnew, hsent⟩ := final_of_wp (macSend_handed (s := s) q mac etherTypeIpv4)
      obtain ⟨new', hnew', hsent'⟩ := final_of_wp (macSend_handed (s := s.write q k') q mac etherTypeIpv4)
      have hframe := (hsame.macFramed mac s.ourMac etherTypeIpv4).payload
      rw [hwaits.content] at hsent
      rw [Stack.write_packets, Function.update_self, Stack.write_ourMac, hframe] at hsent'
      apply Meets.parted
      refine ⟨new ++ past, new' ++ past, ?_, ?_, ?_, ?_, ?_⟩
      · rw [hnew, htrace, List.append_assoc]
      · rw [hnew', Stack.write_trace, htrace, List.append_assoc]
      · rw [fate_append_waiting hpast, hsent]
        simp
      · rw [fate_append_waiting hpast, fate_append_waiting hpast, hsent, hsent']
      · rw [fate_append_waiting hpast, hsent]
        rintro frame hframe
        cases hframe
        exact ⟨mac, s.ourMac, rfl⟩
  · have hne : c → q ≠ p := fun _ => hq
    exact .bind (modifyPacket_blind hne _) fun _ => .bind (recordWindow_blind _ _ _) fun _ =>
      read_blind (fun _ => rfl) fun _ => .bind (modifyPacket_blind hne _) fun _ => .bind (emit_blind fun _ => rfl)
      fun _ => gmacSend_blind hne

theorem modifyEntry_blind (entry : ArpEntryId) (f : ArpEntry → ArpEntry) :
    Blind p k k' base c (modifyEntry entry f) := assign_blind (fun _ => rfl) fun _ => rfl

theorem getTime_blind : Blind p k k' base c getTime := read_blind (fun _ => rfl) fun _ => pure_blind _

theorem freeEntryPackets_blind (entry : ArpEntryId) (packets : List PacketId) :
    Blind p k k' base c (freeEntryPackets entry packets) := by
  induction packets with
  | nil => exact pure_blind _
  | cons packet rest ih =>
    exact .bind (modifyEntry_blind _ _) fun _ => .bind (freeNetworkPacket_blind _) fun _ =>
      .bind (modifyEntry_blind _ _) fun _ => ih

theorem freeEntry_blind (entry : ArpEntryId) : Blind p k k' base c (freeEntry entry) :=
  read_blind (fun _ => rfl) fun _ => .bind (freeEntryPackets_blind _ _) fun _ =>
    assign_blind (fun _ => rfl) fun _ => rfl

theorem allocateEntry_blind : Blind p k k' base c allocateEntry := by
  have htake : ∀ entry, Blind p k k' base c (takeEntry entry) := fun entry =>
    .bind (modifyEntry_blind _ _) fun _ => .bind (assign_blind (fun _ => rfl) fun _ => rfl) fun _ => pure_blind _
  refine read_blind (fun _ => rfl) fun s => ?_
  split
  · exact .bind (assign_blind (fun _ => rfl) fun _ => rfl) fun _ => htake _
  · refine read_blind (fun _ => rfl) fun s => ?_
    split
    · exact .throw _
    · exact .bind (emit_blind fun _ => rfl) fun _ => .bind (freeEntry_blind _) fun _ => htake _

theorem sendArpPacket_blind (targetMac : Mac) (targetIp : Ip) (arpType : ArpType) :
    Blind p k k' base c (sendArpPacket targetMac targetIp arpType) := by
  refine allocateNetworkPacket_blind.bindWith fun q => ?_
  have hne : c ∧ q ≠ p → q ≠ p := fun hc => hc.2
  have hsend : ∀ mac, Blind p k k' base (c ∧ q ≠ p) (macSend q mac etherTypeArp) := fun _ =>
    macSend_blind fun hc heq => absurd heq (hne hc)
  exact .bind (recordWindow_blind _ _ _) fun _ => read_blind (fun _ => rfl) fun _ =>
    .bind (modifyPacket_blind hne _) fun _ => .ite (fun _ => hsend _) fun _ => hsend _

theorem findArpEntry_blind (ip : Ip) : Blind p k k' base c (findArpEntry ip) :=
  read_blind (fun _ => rfl) fun _ => pure_blind _

theorem addToArpEntryQueue_blind (q : PacketId) (entry : ArpEntryId) :
    Blind p k k' base c (addToArpEntryQueue q entry) := by
  have happend : Blind p k k' base c (appendToArpEntryQueue q entry) :=
    .bind (modifyEntry_blind _ _) fun _ => recordWindow_blind _ _ _
  refine read_blind (fun _ => rfl) fun s => .ite (fun _ => read_blind (fun _ => rfl) fun s => ?_) fun _ => happend
  split
  · exact .throw _
  · exact .bind (modifyEntry_blind _ _) fun _ => .bind (freeNetworkPacket_blind _) fun _ =>
      .bind (modifyEntry_blind _ _) fun _ => happend

theorem arpSend_blind (q : PacketId) (ip : Ip) : Blind p k k' base c (arpSend q ip) := by
  refine .bind (emit_blind fun _ => rfl) fun _ => .bind (findArpEntry_blind _) fun found => ?_
  split
  · exact read_blind (fun _ => rfl) fun s => .ite (fun _ => macSend_blind fun _ _ => rfl) fun _ =>
      addToArpEntryQueue_blind _ _
  · exact .bind allocateEntry_blind fun _ => .bind getTime_blind fun _ => .bind (modifyEntry_blind _ _) fun _ =>
      .bind (addToArpEntryQueue_blind _ _) fun _ => sendArpPacket_blind _ _ _

theorem sendPacketsOnEntry_blind (entry : ArpEntryId) (packets : List PacketId) :
    Blind p k k' base c (sendPacketsOnEntry entry packets) := by
  induction packets with
  | nil => exact pure_blind _
  | cons packet rest ih =>
    exact .bind (modifyEntry_blind _ _) fun _ => read_blind (fun _ => rfl) fun _ =>
      .bind (macSend_blind fun _ _ => rfl) fun _ => ih

theorem updateArpMapping_blind (ip : Ip) (mac : Mac) (updateOnlyIfNotValid : Bool) :
    Blind p k k' base c (updateArpMapping ip mac updateOnlyIfNotValid) := by
  refine .bind (findArpEntry_blind _) fun found => ?_
  split
  · exact pure_blind _
  · exact read_blind (fun _ => rfl) fun _ => .ite (fun _ => pure_blind _) fun _ => .bind getTime_blind fun _ =>
      .bind (emit_blind fun _ => rfl) fun _ => .bind (modifyEntry_blind _ _) fun _ =>
      read_blind (fun _ => rfl) fun _ => sendPacketsOnEntry_blind _ _

theorem handleArp_blind (h : c → q ≠ p) : Blind p k k' base c (handleArp q) := by
  have hfree : Blind p k k' base c (freeNetworkPacket q) := freeNetworkPacket_blind q
  refine .bind (getPacket_blind h) fun content => .ite (fun _ => hfree) fun _ => .bind (recordWindow_blind _ _ _)
    fun _ => .ite (fun _ => hfree) fun _ => read_blind (fun _ => rfl) fun s => ?_
  dsimp only
  refine .ite (fun _ => .ite (fun _ => ?_) fun _ => ?_) fun _ => .ite (fun _ => .ite (fun _ => ?_) fun _ => ?_)
    fun _ => ?_
  · exact .bind (updateArpMapping_blind _ _ _) fun _ => hfree
  · exact hfree
  · exact .bind (sendArpPacket_blind _ _ _) fun _ => hfree
  · exact hfree
  · exact hfree

theorem arpTask_blind : Blind p k k' base c arpTask := by
  have htask : ∀ entry, Blind p k k' base c (arpEntryTask entry) := fun entry =>
    read_blind (fun _ => rfl) fun _ => .bind getTime_blind fun _ =>
      .ite (fun _ => .ite (fun _ => freeEntry_blind _) fun _ => pure_blind _) fun _ =>
      .ite (fun _ => .ite (fun _ => .bind (sendArpPacket_blind _ _ _) fun _ => modifyEntry_blind _ _) fun _ =>
      freeEntry_blind _) fun _ => pure_blind _
  have htasks : ∀ entries, Blind p k k' base c (arpEntriesTask entries) := by
    intro entries
    induction entries with
    | nil => exact pure_blind _
    | cons entry rest ih => exact .bind (htask entry) fun _ => ih
  exact read_blind (fun _ => rfl) fun _ => htasks _

end Steps

end MiniIp.Invariant
