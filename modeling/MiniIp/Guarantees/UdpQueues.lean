import Mathlib.Data.List.Find
import MiniIp.Invariant.Adapter
import MiniIp.Invariant.Frame
import MiniIp.Library.DropOldest

/-!
# The queues of the UDP connections

Every connection has a queue of at most `max_packet_count` datagrams, from which `handle_udp`
(udp.c:166-197) drops the oldest one when there are too many. The count that stands beside the
queue is its length, also where the limit is 0.
-/

set_option autoImplicit false

namespace MiniIp.Guarantees.UdpQueues

open MiniIp.Source MiniIp.Invariant MiniIp.Library.DropOldest MiniIp.Library.Runs MiniIp.Library.Wp

structure Sockets where
  stack : Stack
  /-- The packets in the hands of the callers. -/
  held : List PacketId
  /-- The ports that are listened on, with their limits. -/
  opened : List (Port × Int)
  /-- The datagrams that have arrived for these ports, and those that have been returned. -/
  arrived : List (Port × NetworkPacket)
  returned : List (Port × NetworkPacket)

def destPort (p : NetworkPacket) : Port := readBe16 p.data (p.index + 2)

/-- The packet holds a UDP header and at least one byte for a port that is listened on. -/
def Sockets.Accepts (a : Sockets) (p : NetworkPacket) : Prop :=
  udpHeaderSize < sizeT p.length ∧ destPort p ∈ a.opened.map (·.1)

instance (a : Sockets) (p : NetworkPacket) : Decidable (a.Accepts p) := inferInstanceAs (Decidable (_ ∧ _))

inductive Call where
  | allocate
  | write (packet : PacketId) (content : NetworkPacket)
  | free (packet : PacketId)
  | listen (port : Port) (maxPacketCount : Int)
  | handle (packet : PacketId)
  | receive (port : Port)

abbrev Net.onSockets {α : Type} (x : Net α) : EStateM Halt Sockets α :=
  onPart Sockets.stack (fun s a => { a with stack := s }) x

def Call.exec : Call → EStateM Halt Sockets Unit
  | allocate => do
    let packet ← Net.onSockets allocateNetworkPacket
    modify fun a => { a with held := packet :: a.held }
  | write packet content => Net.onSockets (modify fun s => s.write packet content)
  | free packet => do
    Net.onSockets (freeNetworkPacket packet)
    modify fun a => { a with held := a.held.erase packet }
  | listen port maxPacketCount => do
    Net.onSockets (udpListen port maxPacketCount)
    modify fun a => { a with opened := (port, maxPacketCount) :: a.opened }
  | handle packet => do
    modify fun a => { a with
      held := a.held.erase packet
      arrived := if a.Accepts (a.stack.packets packet) then
        a.arrived ++ [(destPort (a.stack.packets packet), udpStripped (a.stack.packets packet))]
      else a.arrived }
    Net.onSockets (handleUdp packet)
  | receive port => do
    match (← Net.onSockets (udpReceiveZeroCopy port)) with
    | none => pure ()
    | some packet => modify fun a => { a with
        held := packet :: a.held
        returned := a.returned ++ [(port, a.stack.packets packet)] }

/-- Every port is listened on once, with a limit that is not negative, and there are 16 connections. -/
def Call.Allowed (a : Sockets) : Call → Prop
  | allocate | receive _ => True
  | write packet _ | free packet | handle packet => packet ∈ a.held
  | listen port maxPacketCount =>
    port ∉ a.opened.map (·.1) ∧ a.opened.length < 16 ∧ 0 ≤ maxPacketCount

instance (a : Sockets) : (call : Call) → Decidable (call.Allowed a)
  | .allocate | .receive _ => inferInstanceAs (Decidable True)
  | .write packet _ | .free packet | .handle packet => inferInstanceAs (Decidable (packet ∈ a.held))
  | .listen _ _ => inferInstanceAs (Decidable (_ ∧ _ ∧ _))

/-- The port whose queue the call is about. -/
def Call.port (a : Sockets) : Call → Option Port
  | allocate | write .. | free _ => none
  | listen port _ | receive port => some port
  | handle packet => some (destPort (a.stack.packets packet))

def Sockets.start (application : Application) (time : Time) (entropy : Nat → UInt32) : Sockets :=
  ⟨booted application time entropy, [], [], [], []⟩

/-- The datagrams of one port. -/
def ofPort (port : Port) (datagrams : List (Port × NetworkPacket)) : List NetworkPacket :=
  (datagrams.filter fun d => d.1 = port).map (·.2)

def contents (s : Stack) (c : UdpConnectionId) : List NetworkPacket :=
  (s.udp.connections c).packetQueue.map s.packets

/-- The datagrams in the queue of a port. -/
def queueOf (s : Stack) (port : Port) : Option (List NetworkPacket) :=
  (findConnection s.udp port).map (contents s)

/-- The invariant. -/
structure Served (a : Sockets) : Prop where
  sound : ∃ limit, Sound False (fun _ _ _ _ => True) limit a.held a.stack
  opened : a.opened = a.stack.udp.usedConnections.map fun c =>
    ((a.stack.udp.connections c).port, (a.stack.udp.connections c).maxPacketCount)
  ports : (a.opened.map (·.1)).Nodup
  limits : ∀ e ∈ a.opened, 0 ≤ e.2
  arrived : ∀ d ∈ a.arrived, d.1 ∈ a.opened.map (·.1)
  returned : ∀ d ∈ a.returned, d.1 ∈ a.opened.map (·.1)
  queues : ∀ c ∈ a.stack.udp.usedConnections,
    Fifo (a.stack.udp.connections c).maxPacketCount.toNat
      (ofPort (a.stack.udp.connections c).port a.arrived) (ofPort (a.stack.udp.connections c).port a.returned)
      (contents a.stack c)

variable {a b : Sockets} {s t : Stack} {c : UdpConnectionId} {p : PacketId} {port : Port} {held : List PacketId}
  {limit : ℕ}

theorem ofPort_append_same (datagrams : List (Port × NetworkPacket)) (d : NetworkPacket) :
    ofPort port (datagrams ++ [(port, d)]) = ofPort port datagrams ++ [d] := by
  simp [ofPort]

theorem ofPort_append_other {port' : Port} (hne : port' ≠ port) (datagrams : List (Port × NetworkPacket))
    (d : NetworkPacket) : ofPort port (datagrams ++ [(port', d)]) = ofPort port datagrams := by
  simp [ofPort, hne]

theorem ofPort_nil {datagrams : List (Port × NetworkPacket)} {opened : List (Port × Int)}
    (h : ∀ d ∈ datagrams, d.1 ∈ opened.map (·.1)) (hport : port ∉ opened.map (·.1)) :
    ofPort port datagrams = [] := by
  rw [ofPort, List.map_eq_nil_iff, List.filter_eq_nil_iff]
  intro d hd heq
  rw [decide_eq_true_eq] at heq
  exact hport (heq ▸ h d hd)

theorem keep_map {α β : Type} (f : α → β) (m : ℕ) (items : List α) :
    (keep m items).map f = keep m (items.map f) := by
  unfold keep
  rw [List.length_map]
  split
  · rw [List.map_tail]
  · rfl

theorem Served.mem_ports (h : Served a) : port ∈ a.opened.map (·.1) ↔
    ∃ c ∈ a.stack.udp.usedConnections, (a.stack.udp.connections c).port = port := by
  rw [h.opened, List.map_map, List.mem_map]
  rfl

/-- No two connections have the same port. -/
theorem Served.port_inj (h : Served a) {c c' : UdpConnectionId} (hc : c ∈ a.stack.udp.usedConnections)
    (hc' : c' ∈ a.stack.udp.usedConnections)
    (hport : (a.stack.udp.connections c).port = (a.stack.udp.connections c').port) : c = c' := by
  have hnodup := h.ports
  rw [h.opened, List.map_map] at hnodup
  exact List.inj_on_of_nodup_map hnodup hc hc' hport

/-- `find_connection` finds the connection of a port. -/
theorem Served.find (h : Served a) (hc : c ∈ a.stack.udp.usedConnections) :
    findConnection a.stack.udp (a.stack.udp.connections c).port = some c := by
  cases hfind : findConnection a.stack.udp (a.stack.udp.connections c).port with
  | none =>
    have hnot := List.find?_eq_none.mp hfind c hc
    simp at hnot
  | some c' =>
    obtain ⟨hused, hport⟩ := findConnection_mem hfind
    rw [h.port_inj hused hc hport]

theorem contents_kept (hudp : t.udp = s.udp)
    (hcontent : ∀ p ∈ (s.udp.connections c).packetQueue, t.packets p = s.packets p) :
    contents t c = contents s c := by
  unfold contents
  rw [hudp]
  exact List.map_congr_left hcontent

/-- The connections and the packets in their queues are what they were. -/
structure QueuesKept (s t : Stack) : Prop where
  udp : t.udp = s.udp
  content : ∀ c, ∀ p ∈ (s.udp.connections c).packetQueue, t.packets p = s.packets p

theorem QueuesKept.queueOf (h : QueuesKept s t) (port : Port) : queueOf t port = queueOf s port := by
  unfold UdpQueues.queueOf
  rw [h.udp]
  apply congrArg₂ Option.map _ rfl
  funext c
  exact contents_kept h.udp (h.content c)

theorem Served.kept (h : Served a) (hkept : QueuesKept a.stack b.stack)
    (hsound : ∃ limit, Sound False (fun _ _ _ _ => True) limit b.held b.stack) (hopened : b.opened = a.opened)
    (harrived : b.arrived = a.arrived) (hreturned : b.returned = a.returned) : Served b := by
  constructor
  · exact hsound
  · rw [hopened, hkept.udp]
    exact h.opened
  · rw [hopened]
    exact h.ports
  · rw [hopened]
    exact h.limits
  · rw [harrived, hopened]
    exact h.arrived
  · rw [hreturned, hopened]
    exact h.returned
  · intro c hc
    rw [hkept.udp] at hc
    rw [harrived, hreturned, contents_kept hkept.udp (hkept.content c), hkept.udp]
    exact h.queues c hc

/-- What every call does: it keeps the invariant, and the queues of all other ports. -/
def Keeps (call : Call) (a b : Sockets) : Prop :=
  Served b ∧ ∀ port, call.port a ≠ some port → queueOf b.stack port = queueOf a.stack port

theorem Served.allocate (h : Served a) :
    wp Call.allocate.exec (fun _ b => Keeps .allocate a b) (fun e _ => e ≠ .nullPointer) a := by
  obtain ⟨limit, hsound⟩ := h.sound
  simp only [Call.exec, wp_bind, wp_onPart, wp_modify]
  apply wp_mono (wp_and (allocateNetworkPacket_sound hsound le_rfl) ((allocateNetworkPacket_delivers : Delivers True _).sends a.stack))
  · intro p t ht
    obtain ⟨⟨hs, _, _, hcontent⟩, hsends⟩ := ht
    have hkept : QueuesKept a.stack t := by
      constructor
      · exact hsends.udp
      · intro c q hq
        rw [← hsends.udp] at hq
        exact hcontent q (hs.owned.ne_udp List.mem_cons_self c hq)
    exact ⟨h.kept hkept ⟨limit, hs⟩ rfl rfl rfl, fun port _ => hkept.queueOf port⟩
  · intro e t ht
    exact ht.1.node

theorem Served.write (h : Served a) {content : NetworkPacket} (hp : p ∈ a.held) :
    Keeps (.write p content) a { a with stack := a.stack.write p content } := by
  obtain ⟨limit, hsound⟩ := h.sound
  have hkept : QueuesKept a.stack (a.stack.write p content) := by
    constructor
    · rfl
    · intro c q hq
      rw [Stack.write_packets, Function.update_of_ne (hsound.owned.ne_udp hp c hq)]
  exact ⟨h.kept hkept ⟨limit, hsound.write hp content⟩ rfl rfl rfl, fun port _ => hkept.queueOf port⟩

theorem Served.free (h : Served a) (hp : p ∈ a.held) :
    wp (Call.free p).exec (fun _ b => Keeps (.free p) a b) (fun e _ => e ≠ .nullPointer) a := by
  obtain ⟨limit, hsound⟩ := h.sound
  simp only [Call.exec, wp_bind, wp_onPart, wp_modify, wp_freeNetworkPacket]
  have hkept : QueuesKept a.stack ((a.stack.setPool (p :: a.stack.freeNetworkPackets)).observe (.freed p)) :=
    ⟨rfl, fun _ _ _ => rfl⟩
  exact ⟨h.kept hkept ⟨limit, (hsound.erase hp).freed⟩ rfl rfl rfl, fun port _ => hkept.queueOf port⟩

section Opened

variable {maxPacketCount : Int}

theorem opened_find (h : Opened s port maxPacketCount c t) (hunused : c ∉ s.udp.usedConnections) {port' : Port}
    (hne : port ≠ port') : findConnection t.udp port' = findConnection s.udp port' := by
  unfold findConnection
  rw [h.used, List.find?_cons_of_neg (by simpa [h.connections] using hne)]
  apply List.find?_congr
  intro c' hc'
  have hother : c' ≠ c := by
    rintro rfl
    exact hunused hc'
  rw [h.other hother]

theorem opened_contents (h : Opened s port maxPacketCount c t) {c' : UdpConnectionId} (hne : c' ≠ c) :
    contents t c' = contents s c' := by
  unfold contents
  rw [h.other hne, h.packets]

/-- The invariant for an opened connection. -/
theorem Served.opened_step (h : Served a) (hnew : port ∉ a.opened.map (·.1)) (hlimit : 0 ≤ maxPacketCount)
    (ht : Opened a.stack port maxPacketCount c t) (hunused : c ∉ a.stack.udp.usedConnections)
    (hempty : (a.stack.udp.connections c).packetQueue = [])
    (hsound : ∃ limit, Sound False (fun _ _ _ _ => True) limit a.held t) :
    Served { a with stack := t, opened := (port, maxPacketCount) :: a.opened } := by
  have hother : ∀ c' ∈ a.stack.udp.usedConnections, c' ≠ c := by
    rintro c' hc' rfl
    exact hunused hc'
  constructor
  · exact hsound
  · simp only [ht.used, List.map_cons, h.opened, ht.connections, Function.update_self]
    congr 1
    apply List.map_congr_left
    intro c' hc'
    rw [Function.update_of_ne (hother c' hc')]
  · rw [List.map_cons]
    exact List.nodup_cons.mpr ⟨hnew, h.ports⟩
  · intro e he
    rcases List.mem_cons.mp he with rfl | hold
    · exact hlimit
    · exact h.limits e hold
  · intro d hd
    exact List.mem_cons_of_mem _ (h.arrived d hd)
  · intro d hd
    exact List.mem_cons_of_mem _ (h.returned d hd)
  · intro c' hc'
    have hmem : c' ∈ c :: a.stack.udp.usedConnections := ht.used ▸ hc'
    rcases List.mem_cons.mp hmem with rfl | hold
    · have hcontents : contents t c' = [] := by simp [contents, ht.connections, hempty]
      have hport : (t.udp.connections c').port = port := by simp [ht.connections]
      simp only [hcontents, hport, ofPort_nil h.arrived hnew, ofPort_nil h.returned hnew]
      exact Fifo.empty
    · have hne := hother c' hold
      simp only [ht.other hne, opened_contents ht hne]
      exact h.queues c' hold

end Opened

theorem Served.listen {maxPacketCount : Int} (h : Served a) (hnew : port ∉ a.opened.map (·.1))
    (hfew : a.opened.length < 16) (hlimit : 0 ≤ maxPacketCount) :
    wp (Call.listen port maxPacketCount).exec (fun _ b => Keeps (.listen port maxPacketCount) a b)
      (fun e _ => e ≠ .nullPointer) a := by
  obtain ⟨limit, hsound⟩ := h.sound
  have hfree : a.stack.udp.freeConnections ≠ [] := by
    apply hsound.udp.free_ne_nil
    rwa [h.opened, List.length_map] at hfew
  have hsum : limitSum a.stack.udp + maxPacketCount.toNat ≤ limit + maxPacketCount.toNat :=
    Nat.add_le_add_right hsound.udp.limited _
  have hlarger : Sound False (fun _ _ _ _ => True) (limit + maxPacketCount.toNat) a.held a.stack :=
    { hsound with udp := { hsound.udp with limited := le_of_add_le_left hsum } }
  have hlisten : wp (udpListen port maxPacketCount) _ (Stopped False _ _ 0) a.stack :=
    udpListen_sound hlarger hfree hsum
  simp only [Call.exec, wp_bind, wp_onPart, wp_modify]
  apply wp_mono (wp_and hlisten (udpListen_opened port maxPacketCount))
  · intro _ t ht
    obtain ⟨hs, c, hopened⟩ := ht
    have hunused := hopened.unused hsound.udp.nodup
    constructor
    · exact h.opened_step hnew hlimit hopened hunused (hsound.udp.freeEmpty c hopened.mem_free) ⟨_, hs⟩
    · intro port' hne
      have hports : port ≠ port' := fun heq => hne (congrArg some heq)
      have hfind := opened_find hopened hunused hports
      unfold queueOf
      simp only [hfind]
      cases hold : findConnection a.stack.udp port' with
      | none => rfl
      | some c' =>
        have hother : c' ≠ c := by
          rintro rfl
          exact hunused (findConnection_mem hold).1
        simp only [Option.map_some, opened_contents hopened hother]
  · intro e t ht
    exact ht.1.node

/-- The packet has been put into the queue, and the oldest one has gone if there were too many. -/
structure Queued (s : Stack) (c : UdpConnectionId) (p : PacketId) (t : Stack) : Prop where
  used : t.udp.usedConnections = s.udp.usedConnections
  port : (t.udp.connections c).port = (s.udp.connections c).port
  maxPacketCount : (t.udp.connections c).maxPacketCount = (s.udp.connections c).maxPacketCount
  queue : (t.udp.connections c).packetQueue =
    keep (s.udp.connections c).maxPacketCount.toNat ((s.udp.connections c).packetQueue ++ [p])
  other : ∀ c', c' ≠ c → t.udp.connections c' = s.udp.connections c'
  packets : t.packets = s.packets

theorem udpQueuePacket_queued
    (hcounted : (s.udp.connections c).packetCount = (s.udp.connections c).packetQueue.length)
    (hlimit : 0 ≤ (s.udp.connections c).maxPacketCount) :
    wp (udpQueuePacket c p) (fun _ t => Queued s c p t) (fun _ _ => False) s := by
  have hlength : ((s.udp.connections c).packetQueue ++ [p]).length =
      (s.udp.connections c).packetQueue.length + 1 := by
    rw [List.length_append, List.length_singleton]
  unfold udpQueuePacket udpLimitQueue
  simp only [wp_bind, wp_modifyConnection, wp_recordWindow, wp_emit, wp_get, wp_ite, Stack.observe_udp,
    Stack.setConnection_udp_connections, Function.update_self]
  split
  · next hfull =>
    split
    · next hnil => simp at hnil
    · next old rest hqueue =>
      simp only [wp_bind, wp_modifyConnection, wp_freeNetworkPacket]
      constructor
      · simp
      · simp
      · simp
      · rw [keep, if_pos (by omega), hqueue, List.tail_cons]
        simp
      · intro c' hne
        simp [Function.update_of_ne hne]
      · simp
  · next hroom =>
    rw [wp_pure]
    constructor
    · rfl
    · simp
    · simp
    · rw [keep, if_neg (by omega)]
      simp
    · intro c' hne
      simp [Function.update_of_ne hne]
    · rfl

/-- What `handle_udp` can do with a packet: free it, or put it into the queue of its port. -/
inductive Handled (s : Stack) (p : PacketId) (t : Stack) : Prop
  | ignored
      (unwanted : sizeT (s.packets p).length ≤ udpHeaderSize ∨ findConnection s.udp (destPort (s.packets p)) = none)
      (udp : t.udp = s.udp)
      (other : ∀ q, q ≠ p → t.packets q = s.packets q)
  | queued (c : UdpConnectionId)
      (long : udpHeaderSize < sizeT (s.packets p).length)
      (found : findConnection s.udp (destPort (s.packets p)) = some c)
      (queued : Queued (s.write p (udpStripped (s.packets p))) c p t)

theorem handleUdp_handled (h : UdpTable limit s.udp)
    (hlimits : ∀ c ∈ s.udp.usedConnections, 0 ≤ (s.udp.connections c).maxPacketCount) :
    wp (handleUdp p) (fun _ t => Handled s p t) (fun _ _ => False) s := by
  unfold handleUdp
  simp only [wp_bind, wp_getPacket, wp_ite, wp_freeNetworkPacket]
  split
  · next hshort => exact .ignored (.inl hshort) rfl fun _ _ => rfl
  · next hlong =>
    simp only [wp_recordWindow, wp_modifyPacket, wp_get, Stack.write_udp, Stack.observe_udp]
    split
    · next hfind =>
      rw [wp_freeNetworkPacket]
      apply Handled.ignored
      · exact .inr hfind
      · rfl
      · intro q hq
        simp [Function.update_of_ne hq]
    · next c hfind =>
      have hused := (findConnection_mem hfind).1
      refine wp_next (udpQueuePacket_queued ?_ ?_) fun _ t ht => ?_
      · exact h.counted c hused
      · exact hlimits c hused
      · refine .queued c (lt_of_not_ge hlong) hfind ?_
        exact ⟨ht.used, ht.port, ht.maxPacketCount, ht.queue, ht.other, ht.packets⟩

section Queued

variable {content : NetworkPacket}

theorem Queued.connection_port (h : Queued s c p t) (c' : UdpConnectionId) :
    (t.udp.connections c').port = (s.udp.connections c').port := by
  by_cases hcc : c' = c
  · subst hcc
    exact h.port
  · rw [h.other c' hcc]

theorem Queued.connection_limit (h : Queued s c p t) (c' : UdpConnectionId) :
    (t.udp.connections c').maxPacketCount = (s.udp.connections c').maxPacketCount := by
  by_cases hcc : c' = c
  · subst hcc
    exact h.maxPacketCount
  · rw [h.other c' hcc]

theorem Queued.find (h : Queued s c p t) (port : Port) :
    findConnection t.udp port = findConnection s.udp port := by
  unfold findConnection
  simp only [h.used, h.connection_port]

theorem map_write {packets : List PacketId} (hfree : ∀ q ∈ packets, q ≠ p) :
    packets.map (s.write p content).packets = packets.map s.packets := by
  apply List.map_congr_left
  intro q hq
  rw [Stack.write_packets, Function.update_of_ne (hfree q hq)]

theorem Queued.contents_self (h : Queued (s.write p content) c p t)
    (hfree : ∀ q ∈ (s.udp.connections c).packetQueue, q ≠ p) :
    contents t c = keep (s.udp.connections c).maxPacketCount.toNat (contents s c ++ [content]) := by
  unfold contents
  rw [h.queue, h.packets, keep_map, List.map_append]
  simp only [Stack.write_udp]
  rw [map_write hfree]
  simp

theorem Queued.contents_other (h : Queued (s.write p content) c p t) {c' : UdpConnectionId} (hne : c' ≠ c)
    (hfree : ∀ q ∈ (s.udp.connections c').packetQueue, q ≠ p) : contents t c' = contents s c' := by
  unfold contents
  rw [h.other c' hne, h.packets]
  exact map_write hfree

end Queued

/-- The invariant for a packet that has been put into the queue of its port. -/
theorem Served.queued (h : Served a) (hp : p ∈ a.held) (hport : (a.stack.udp.connections c).port = port)
    (hused : c ∈ a.stack.udp.usedConnections) {content : NetworkPacket}
    (ht : Queued (a.stack.write p content) c p t)
    (hsound : ∃ limit, Sound False (fun _ _ _ _ => True) limit (a.held.erase p) t) :
    Served { a with stack := t, held := a.held.erase p, arrived := a.arrived ++ [(port, content)] } := by
  obtain ⟨limit, hbefore⟩ := h.sound
  have hfree : ∀ c', ∀ q ∈ (a.stack.udp.connections c').packetQueue, q ≠ p :=
    fun c' q hq => hbefore.owned.ne_udp hp c' hq
  have hused_eq : t.udp.usedConnections = a.stack.udp.usedConnections := ht.used
  have hports : ∀ c', (t.udp.connections c').port = (a.stack.udp.connections c').port := ht.connection_port
  have hlimits : ∀ c', (t.udp.connections c').maxPacketCount = (a.stack.udp.connections c').maxPacketCount :=
    ht.connection_limit
  constructor
  · exact hsound
  · simp only [hused_eq, hports, hlimits]
    exact h.opened
  · exact h.ports
  · exact h.limits
  · intro d hd
    rcases List.mem_append.mp hd with hold | hnew
    · exact h.arrived d hold
    · rw [List.mem_singleton.mp hnew]
      exact h.mem_ports.mpr ⟨c, hused, hport⟩
  · exact h.returned
  · intro c' hc'
    rw [hused_eq] at hc'
    simp only [hports, hlimits]
    by_cases hcc : c' = c
    · subst hcc
      rw [ht.contents_self (hfree c'), ← hport, ofPort_append_same]
      apply (h.queues c' hc').arrive
      rw [contents, List.length_map]
      exact hbefore.udp.bounded c' hc'
    · have hother : port ≠ (a.stack.udp.connections c').port := by
        intro heq
        exact hcc (h.port_inj hc' hused (heq.symm.trans hport.symm))
      rw [ht.contents_other hcc (hfree c'), ofPort_append_other hother]
      exact h.queues c' hc'

/-- The invariant for a handled packet. -/
theorem Served.handled (h : Served a) (hp : p ∈ a.held) (ht : Handled a.stack p t)
    (hsound : ∃ limit, Sound False (fun _ _ _ _ => True) limit (a.held.erase p) t) :
    Keeps (.handle p) a { a with
      stack := t
      held := a.held.erase p
      arrived := if a.Accepts (a.stack.packets p) then
        a.arrived ++ [(destPort (a.stack.packets p), udpStripped (a.stack.packets p))]
      else a.arrived } := by
  obtain ⟨limit, hbefore⟩ := h.sound
  have hfree : ∀ c', ∀ q ∈ (a.stack.udp.connections c').packetQueue, q ≠ p :=
    fun c' q hq => hbefore.owned.ne_udp hp c' hq
  cases ht with
  | ignored unwanted udp other =>
    have hkept : QueuesKept a.stack t := ⟨udp, fun c q hq => other q (hfree c q hq)⟩
    have hnot : ¬ a.Accepts (a.stack.packets p) := by
      rintro ⟨hlong, hport⟩
      rcases unwanted with hshort | hnone
      · exact absurd hlong (not_lt.mpr hshort)
      · obtain ⟨c, hused, hc⟩ := h.mem_ports.mp hport
        rw [← hc, h.find hused] at hnone
        cases hnone
    rw [if_neg hnot]
    exact ⟨h.kept hkept hsound rfl rfl rfl, fun port _ => hkept.queueOf port⟩
  | queued c long found queued =>
    obtain ⟨hused, hport⟩ := findConnection_mem found
    have haccepts : a.Accepts (a.stack.packets p) := ⟨long, h.mem_ports.mpr ⟨c, hused, hport⟩⟩
    rw [if_pos haccepts]
    constructor
    · exact h.queued hp hport hused queued hsound
    · intro port hne
      have hfind : findConnection t.udp port = findConnection a.stack.udp port := queued.find port
      unfold queueOf
      simp only [hfind]
      cases hold : findConnection a.stack.udp port with
      | none => rfl
      | some c' =>
        obtain ⟨_, hport'⟩ := findConnection_mem hold
        have hcc : c' ≠ c := by
          rintro rfl
          exact hne (congrArg some (hport.symm.trans hport'))
        simp only [Option.map_some, queued.contents_other hcc (hfree c')]

theorem Served.handle (h : Served a) (hp : p ∈ a.held) :
    wp (Call.handle p).exec (fun _ b => Keeps (.handle p) a b) (fun e _ => e ≠ .nullPointer) a := by
  obtain ⟨limit, hsound⟩ := h.sound
  have hlimits : ∀ c ∈ a.stack.udp.usedConnections, 0 ≤ (a.stack.udp.connections c).maxPacketCount := by
    intro c hc
    apply h.limits ((a.stack.udp.connections c).port, (a.stack.udp.connections c).maxPacketCount)
    rw [h.opened]
    exact List.mem_map_of_mem hc
  have hhandled : wp (handleUdp p) _ (Stopped False _ _ 0) a.stack :=
    handleUdp_sound (hsound.erase hp) False.elim fun _ _ _ => trivial
  simp only [Call.exec, wp_bind, wp_modify, wp_onPart]
  apply wp_mono (wp_and hhandled (handleUdp_handled (p := p) hsound.udp hlimits))
  · intro _ t ht
    exact h.handled hp ht.2 ⟨limit, ht.1⟩
  · intro e t ht
    exact ht.2.elim

section Dequeued

theorem dequeued_port (c' : UdpConnectionId) :
    ((dequeued s port c p).udp.connections c').port = (s.udp.connections c').port := by
  by_cases hcc : c' = c
  · simp [dequeued, hcc]
  · simp [dequeued, Function.update_of_ne hcc]

theorem dequeued_limit (c' : UdpConnectionId) :
    ((dequeued s port c p).udp.connections c').maxPacketCount = (s.udp.connections c').maxPacketCount := by
  by_cases hcc : c' = c
  · simp [dequeued, hcc]
  · simp [dequeued, Function.update_of_ne hcc]

theorem dequeued_find (port' : Port) :
    findConnection (dequeued s port c p).udp port' = findConnection s.udp port' := by
  unfold findConnection
  simp only [dequeued_port]
  rfl

theorem dequeued_contents_other {c' : UdpConnectionId} (hne : c' ≠ c) :
    contents (dequeued s port c p) c' = contents s c' := by
  simp [contents, dequeued, Function.update_of_ne hne]

theorem dequeued_contents_self (port : Port)
    (hqueue : (s.udp.connections c).packetQueue = p :: (s.udp.connections c).packetQueue.tail) :
    contents s c = s.packets p :: contents (dequeued s port c p) c := by
  unfold contents
  rw [hqueue]
  simp [dequeued]

end Dequeued

theorem Served.dequeued (h : Served a) (hhead : queueHead a.stack port = some (c, p)) :
    Served { a with
      stack := dequeued a.stack port c p
      held := p :: a.held
      returned := a.returned ++ [(port, a.stack.packets p)] } := by
  obtain ⟨limit, hsound⟩ := h.sound
  obtain ⟨hused, hport, hqueue⟩ := queueHead_some hhead
  constructor
  · exact ⟨limit, hsound.dequeued hhead⟩
  · simp only [dequeued_port, dequeued_limit]
    exact h.opened
  · exact h.ports
  · exact h.limits
  · exact h.arrived
  · intro d hd
    rcases List.mem_append.mp hd with hold | hnew
    · exact h.returned d hold
    · rw [List.mem_singleton.mp hnew]
      exact h.mem_ports.mpr ⟨c, hused, hport⟩
  · intro c' hc'
    have hc : c' ∈ a.stack.udp.usedConnections := hc'
    have hfifo := h.queues c' hc
    simp only [dequeued_port, dequeued_limit]
    by_cases hcc : c' = c
    · subst hcc
      rw [dequeued_contents_self port hqueue, hport] at hfifo
      rw [hport, ofPort_append_same]
      exact hfifo.take
    · have hother : port ≠ (a.stack.udp.connections c').port := by
        intro heq
        exact hcc (h.port_inj hc hused (heq.symm.trans hport.symm))
      rw [dequeued_contents_other hcc, ofPort_append_other hother]
      exact hfifo

theorem Served.receive (h : Served a) :
    wp (Call.receive port).exec (fun _ b => Keeps (.receive port) a b) (fun e _ => e ≠ .nullPointer) a := by
  obtain ⟨limit, hsound⟩ := h.sound
  simp only [Call.exec, wp_bind, wp_onPart]
  rw [wp_udpReceiveZeroCopy hsound.udp]
  cases hhead : queueHead a.stack port with
  | none => exact ⟨h, fun _ _ => rfl⟩
  | some head =>
    obtain ⟨c, p⟩ := head
    obtain ⟨_, hport, _⟩ := queueHead_some hhead
    constructor
    · exact h.dequeued hhead
    · intro port' hne
      have hports : port ≠ port' := fun heq => hne (congrArg some heq)
      unfold queueOf
      simp only [dequeued_find]
      cases hfind : findConnection a.stack.udp port' with
      | none => rfl
      | some c' =>
        have hcc : c' ≠ c := by
          rintro rfl
          exact hports (hport.symm.trans (findConnection_mem hfind).2)
        simp only [Option.map_some, dequeued_contents_other hcc]

theorem Served.call (h : Served a) {call : Call} (hallowed : call.Allowed a) :
    wp call.exec (fun _ b => Keeps call a b) (fun e _ => e ≠ .nullPointer) a := by
  cases call with
  | allocate => exact h.allocate
  | write p content => exact h.write hallowed
  | free p => exact h.free hallowed
  | listen port maxPacketCount => exact h.listen hallowed.1 hallowed.2.1 hallowed.2.2
  | handle p => exact h.handle hallowed
  | receive port => exact h.receive

variable {application : Application} {time : Time} {entropy : Nat → UInt32}

theorem start_served : Served (Sockets.start application time entropy) where
  sound := ⟨0, booted_sound⟩
  opened := by simp [Sockets.start, booted_fresh.udp.2.1]
  ports := List.nodup_nil
  limits := by simp [Sockets.start]
  arrived := by simp [Sockets.start]
  returned := by simp [Sockets.start]
  queues := by simp [Sockets.start, booted_fresh.udp.2.1]

theorem reaches_served (h : Reaches Call.exec Call.Allowed (Sockets.start application time entropy) a) :
    Served a := by
  apply h.invariant
  · exact start_served
  · intro a call _ ha hallowed
    exact wp_partial (ha.call hallowed) fun _ _ hb => hb.1

/-- Every port has a bounded queue that drops its oldest datagram. A call changes the queue of one port
at most, and never uses the first node of an empty list. -/
theorem udp_queues_drop_oldest
    (h : Reaches Call.exec Call.Allowed (Sockets.start application time entropy) a) :
    (∀ e ∈ a.opened, ∃ c, findConnection a.stack.udp e.1 = some c ∧
      (a.stack.udp.connections c).packetCount = (a.stack.udp.connections c).packetQueue.length ∧
      (a.stack.udp.connections c).packetCount ≤ e.2 ∧
      Fifo e.2.toNat (ofPort e.1 a.arrived) (ofPort e.1 a.returned) (contents a.stack c)) ∧
    (∀ d ∈ a.returned, d.1 ∈ a.opened.map (·.1)) ∧
    ∀ call : Call, call.Allowed a → wp call.exec
      (fun _ b => ∀ port, call.port a ≠ some port → queueOf b.stack port = queueOf a.stack port)
      (fun e _ => e ≠ .nullPointer) a := by
  have ha := reaches_served h
  constructor
  · intro e he
    have hlimit := ha.limits e he
    rw [ha.opened] at he
    obtain ⟨c, hused, rfl⟩ := List.mem_map.mp he
    obtain ⟨limit, hsound⟩ := ha.sound
    have hcounted := hsound.udp.counted c hused
    have hbounded := hsound.udp.bounded c hused
    refine ⟨c, ha.find hused, hcounted, ?_, ha.queues c hused⟩
    dsimp only at hlimit ⊢
    omega
  constructor
  · exact ha.returned
  · intro call hallowed
    exact wp_next (ha.call hallowed) fun _ _ hb => hb.2

/-- Two datagrams arrive at a port with room for one, and one is returned: the first has been dropped. -/
theorem udp_queues_drop_oldest_two :
    ∃ a c, Reaches Call.exec Call.Allowed (Sockets.start zeroApplication 0 fun _ => 0) a ∧
      (ofPort 0 a.arrived).map (·.length) = [1, 2] ∧ (ofPort 0 a.returned).map (·.length) = [2] ∧
      findConnection a.stack.udp 0 = some c ∧
      Fifo 1 (ofPort 0 a.arrived) (ofPort 0 a.returned) (contents a.stack c) := by
  have hrun : runs Call.exec (fun a call => decide (call.Allowed a))
      (fun a => (ofPort 0 a.arrived).map (·.length) = [1, 2] ∧ (ofPort 0 a.returned).map (·.length) = [2] ∧
        a.opened = [(0, 1)])
      [.listen 0 1, .allocate, .write 55 { zeroPacket with length := 9 }, .handle 55, .allocate,
        .write 54 { zeroPacket with length := 10 }, .handle 54, .receive 0]
      (Sockets.start zeroApplication 0 fun _ => 0) = true := by
    decide +kernel
  obtain ⟨a, hreach, hcheck⟩ := reaches_of_runs Call.Allowed .start
    (fun _ _ _ hguard => of_decide_eq_true hguard) hrun
  obtain ⟨harrived, hreturned, hopened⟩ := of_decide_eq_true hcheck
  have hmem : ((0, 1) : Port × Int) ∈ a.opened := by
    rw [hopened]
    exact List.mem_cons_self
  obtain ⟨c, hfind, _, _, hfifo⟩ := (udp_queues_drop_oldest hreach).1 _ hmem
  exact ⟨a, c, hreach, harrived, hreturned, hfind, hfifo⟩

end MiniIp.Guarantees.UdpQueues
