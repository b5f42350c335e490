import MiniIp.Library.Counting
import MiniIp.Library.Wp
import MiniIp.Source.System

/-!
# The invariant of the stack

`Sound W U limit held s` is what every function of the stack keeps. `held` are
the packets that the running functions hold in local variables: each of the 96
packets is held, or lies in exactly one of the places that store packets. `W`
switches on the part about windows in the buffers, `U` is any property of the
packets in the UDP queues, `limit` bounds the sizes of the UDP queues together.
The ARP table proper is only kept as long as no entry is evicted from a full
table.
-/

set_option autoImplicit false

namespace MiniIp.Invariant

open MiniIp.Source MiniIp.Library.Counting MiniIp.Library.Wp

/-- How often a packet lies in the places where the stack stores packets. -/
def occurrences (s : Stack) (p : PacketId) : ℕ :=
  s.freeNetworkPackets.count p + slots s.gmac.txPackets p + slots s.gmac.rxPackets p +
    ∑ e, (s.arp.entries e).packetQueue.count p + ∑ c, (s.udp.connections c).packetQueue.count p

/-- Packet conservation while the packets `held` are in local variables. -/
def Owned (held : List PacketId) (s : Stack) : Prop :=
  ∀ p, occurrences s p + held.count p = 1

/-- The packet lies in its buffer and leaves `room` bytes in front. -/
def Fits (room : Int) (p : NetworkPacket) : Prop :=
  room ≤ p.index ∧ 0 ≤ p.length ∧ p.index + p.length ≤ 1024

/-- The window and the header at its start lie inside `data[0..1024)`. -/
def InBuffer : Event → Prop
  | .window _ index length headerSize =>
    0 ≤ index ∧ index + length ≤ 1024 ∧ index + headerSize ≤ 1024
  | _ => True

/-- What holds of the ARP entries in every run. -/
structure ArpBase (a : Arp) : Prop where
  listed : ∀ e, e ∈ a.freeEntries ∨ e ∈ a.usedEntries
  counted : ∀ e, (a.entries e).containValidMapping = false →
    (a.entries e).packetCount ≤ (a.entries e).packetQueue.length

/-- The ARP table as it is meant to be. -/
structure ArpTable (a : Arp) : Prop where
  nodup : (a.freeEntries ++ a.usedEntries).Nodup
  distinctIps : ∀ e ∈ a.usedEntries, ∀ e' ∈ a.usedEntries,
    (a.entries e).ip = (a.entries e').ip → e = e'
  freeEmpty : ∀ e ∈ a.freeEntries, (a.entries e).packetQueue = []
  short : ∀ e, (a.entries e).packetQueue.length ≤ 2
  waiting : ∀ e ∈ a.usedEntries, (a.entries e).containValidMapping = false →
    (a.entries e).packetCount = (a.entries e).packetQueue.length

def NoEviction (trace : List Event) : Prop := ∀ e, Event.arpEvicted e ∉ trace

/-- The destination a packet was given to `arp_send` for, until it is sent or freed. -/
def pending : List Event → PacketId → Option Ip
  | [], _ => none
  | .arpSend q ip :: past, p => if q = p then some ip else pending past p
  | .macSend q _ _ :: past, p => if q = p then none else pending past p
  | .freed q :: past, p => if q = p then none else pending past p
  | _ :: past, p => pending past p

/-- Every packet given to `arp_send` for `ip` goes out to a MAC learned for `ip`. -/
def Delivered : List Event → Prop
  | [] => True
  | .macSend p mac etherType :: past =>
    (etherType = etherTypeIpv4 → ∀ ip, pending past p = some ip → .arpMapped ip mac ∈ past) ∧
      Delivered past
  | _ :: past => Delivered past

/-- The packets that wait in the ARP entries, and no others, are pending, each for the address
of its entry. The packets in `loose` are on their way between a queue and `mac_send`. -/
structure Routed (loose : List PacketId) (a : Arp) (trace : List Event) : Prop where
  queued : ∀ e, ∀ p ∈ (a.entries e).packetQueue, pending trace p = some (a.entries e).ip
  other : ∀ p, p ∉ loose → (∀ e, p ∉ (a.entries e).packetQueue) → pending trace p = none
  mapped : ∀ e, (a.entries e).containValidMapping = true →
    .arpMapped (a.entries e).ip (a.entries e).mac ∈ trace
  delivered : Delivered trace

/-- The sizes of the UDP queues that are listened on, added up. -/
def limitSum (u : Udp) : ℕ :=
  (u.usedConnections.map fun c => (u.connections c).maxPacketCount.toNat).sum

structure UdpTable (limit : ℕ) (u : Udp) : Prop where
  nodup : (u.freeConnections ++ u.usedConnections).Nodup
  listed : ∀ c, c ∈ u.freeConnections ∨ c ∈ u.usedConnections
  freeEmpty : ∀ c ∈ u.freeConnections, (u.connections c).packetQueue = []
  counted : ∀ c ∈ u.usedConnections,
    (u.connections c).packetCount = (u.connections c).packetQueue.length
  bounded : ∀ c ∈ u.usedConnections,
    (u.connections c).packetQueue.length ≤ (u.connections c).maxPacketCount.toNat
  limited : limitSum u ≤ limit

/-- A property of the packets in the queue of a UDP connection, which has a port. -/
abbrev QueueContent := UdpConnectionId → Port → PacketId → NetworkPacket → Prop

structure Base (W : Prop) (U : QueueContent) (limit : ℕ)
    (held : List PacketId) (s : Stack) : Prop where
  owned : Owned held s
  udpContent : ∀ c, ∀ p ∈ (s.udp.connections c).packetQueue,
    U c (s.udp.connections c).port p (s.packets p)
  arpFits : W → ∀ e, ∀ p ∈ (s.arp.entries e).packetQueue, Fits 14 (s.packets p)
  windows : W → ∀ event ∈ s.trace, InBuffer event
  txSlots : ∀ i, (s.gmac.txPackets i).isSome
  rxSlots : ∀ i, (s.gmac.rxPackets i).isSome
  arp : ArpBase s.arp
  table : NoEviction s.trace → ArpTable s.arp
  udp : UdpTable limit s.udp

structure Sound (W : Prop) (U : QueueContent) (limit : ℕ)
    (held : List PacketId) (s : Stack) (loose : List PacketId := []) : Prop
    extends Base W U limit held s where
  route : NoEviction s.trace → Routed loose s.arp s.trace

/-- The state a call is left in when it never returns. No call uses a missing list node, and
where the pool is empty at most `most` packets are in local variables. -/
structure Stopped (W : Prop) (U : QueueContent) (limit most : ℕ)
    (halt : Halt) (s : Stack) : Prop where
  windows : W → ∀ event ∈ s.trace, InBuffer event
  delivered : NoEviction s.trace → Delivered s.trace
  node : halt ≠ .nullPointer
  pool : halt = .poolEmpty →
    s.freeNetworkPackets = [] ∧ ∃ held, held.length ≤ most ∧ Base W U limit held s

/-- Events that say nothing about who owns a packet or where it goes. -/
def Neutral : Event → Prop
  | .window .. | .gmacSend .. | .udpSend .. | .udpQueued .. | .udpTaken .. | .dhcpSent .. |
    .dhcpState .. | .dhcpOffer | .dhcpAck | .arpMapped .. => True
  | .freed .. | .macSend .. | .arpSend .. | .arpEvicted .. => False

section Trace

variable {event : Event} {trace : List Event}

theorem pending_neutral (h : Neutral event) (p : PacketId) :
    pending (event :: trace) p = pending trace p := by
  cases event <;> first | rfl | exact h.elim

theorem delivered_neutral (h : Neutral event) : Delivered (event :: trace) ↔ Delivered trace := by
  cases event <;> first | exact Iff.rfl | exact h.elim

@[simp] theorem noEviction_cons :
    NoEviction (event :: trace) ↔ (∀ e, event ≠ .arpEvicted e) ∧ NoEviction trace := by
  simp only [NoEviction, List.mem_cons, not_or]
  exact ⟨fun h => ⟨fun e he => (h e).1 he.symm, fun e => (h e).2⟩,
    fun h e => ⟨fun he => h.1 e he.symm, h.2 e⟩⟩

def isEviction : Event → Bool
  | .arpEvicted _ => true
  | _ => false

theorem noEviction_iff : NoEviction trace ↔ ∀ event ∈ trace, isEviction event = false := by
  constructor
  · intro h event he
    cases event with
    | arpEvicted e => exact absurd he (h e)
    | _ => rfl
  · intro h e he
    have hno := h _ he
    cases hno

instance : DecidablePred NoEviction := fun _ => decidable_of_iff _ noEviction_iff.symm

theorem Neutral.ne_evicted (h : Neutral event) (e : ArpEntryId) : event ≠ .arpEvicted e := by
  rintro rfl
  exact h

theorem noEviction_neutral (h : Neutral event) : NoEviction (event :: trace) ↔ NoEviction trace := by
  simp only [noEviction_cons, and_iff_right_iff_imp]
  exact fun _ => h.ne_evicted

theorem Routed.neutral {loose : List PacketId} {a : Arp} (hr : Routed loose a trace)
    (h : Neutral event) : Routed loose a (event :: trace) where
  queued e p hp := by rw [pending_neutral h]; exact hr.queued e p hp
  other p hl hp := by rw [pending_neutral h]; exact hr.other p hl hp
  mapped e he := List.mem_cons_of_mem _ (hr.mapped e he)
  delivered := (delivered_neutral h).mpr hr.delivered

end Trace

section Held

variable {W : Prop} {U : QueueContent} {limit : ℕ}
  {held loose : List PacketId} {s : Stack} {p q : PacketId}

/-- A held packet is stored nowhere. -/
theorem Owned.occurrences_eq_zero (h : Owned held s) (hp : p ∈ held) : occurrences s p = 0 := by
  have hcount := List.count_pos_iff.mpr hp
  have hone := h p
  omega

theorem Owned.ne_arp (h : Owned held s) (hp : p ∈ held) (e : ArpEntryId)
    (hq : q ∈ (s.arp.entries e).packetQueue) : q ≠ p := by
  rintro rfl
  have hzero := h.occurrences_eq_zero hp
  have hle := member_le_sum (fun e => (s.arp.entries e).packetQueue.count q) e
  have hpos := List.count_pos_iff.mpr hq
  simp only [occurrences] at hzero
  omega

theorem Owned.ne_udp (h : Owned held s) (hp : p ∈ held) (c : UdpConnectionId)
    (hq : q ∈ (s.udp.connections c).packetQueue) : q ≠ p := by
  rintro rfl
  have hzero := h.occurrences_eq_zero hp
  have hle := member_le_sum (fun c => (s.udp.connections c).packetQueue.count q) c
  have hpos := List.count_pos_iff.mpr hq
  simp only [occurrences] at hzero
  omega

/-- The record of a held packet may be written freely. -/
theorem Base.write (h : Base W U limit held s) (hp : p ∈ held) (content : NetworkPacket) :
    Base W U limit held (s.write p content) where
  owned := h.owned
  udpContent c q hq := by
    rw [Stack.write_packets, Function.update_of_ne (h.owned.ne_udp hp c hq)]
    exact h.udpContent c q hq
  arpFits w e q hq := by
    rw [Stack.write_packets, Function.update_of_ne (h.owned.ne_arp hp e hq)]
    exact h.arpFits w e q hq
  windows := h.windows
  txSlots := h.txSlots
  rxSlots := h.rxSlots
  arp := h.arp
  table := h.table
  udp := h.udp

theorem Sound.write (h : Sound W U limit held s loose) (hp : p ∈ held) (content : NetworkPacket) :
    Sound W U limit held (s.write p content) loose :=
  ⟨h.toBase.write hp content, h.route⟩

theorem Base.observe (h : Base W U limit held s) (event : Event)
    (hn : ∀ e, event ≠ .arpEvicted e) (hw : W → InBuffer event) : Base W U limit held (s.observe event) where
  owned := h.owned
  udpContent := h.udpContent
  arpFits := h.arpFits
  windows w event' he := by
    rcases List.mem_cons.mp he with rfl | hold
    · exact hw w
    · exact h.windows w event' hold
  txSlots := h.txSlots
  rxSlots := h.rxSlots
  arp := h.arp
  table hne := h.table (noEviction_cons.mp hne).2
  udp := h.udp

theorem Sound.observe (h : Sound W U limit held s loose) (event : Event) (hn : Neutral event)
    (hw : W → InBuffer event) : Sound W U limit held (s.observe event) loose :=
  ⟨h.toBase.observe event hn.ne_evicted hw, fun hne => (h.route ((noEviction_neutral hn).mp hne)).neutral hn⟩

/-- The part of the state the invariant speaks about. -/
def stored (s : Stack) :=
  (s.packets, s.freeNetworkPackets, s.gmac.txPackets, s.gmac.rxPackets, s.arp, s.udp, s.trace)

theorem Sound.congr {t : Stack} (h : Sound W U limit held s loose) (heq : stored t = stored s) :
    Sound W U limit held t loose := by
  simp only [stored, Prod.mk.injEq] at heq
  obtain ⟨hpackets, hfree, htx, hrx, harp, hudp, htrace⟩ := heq
  have howned : Owned held t := by
    intro p
    simpa only [occurrences, hfree, htx, hrx, harp, hudp] using h.owned p
  refine ⟨⟨howned, ?_, ?_, ?_, ?_, ?_, ?_, ?_, ?_⟩, ?_⟩
  · rw [hudp, hpackets]; exact h.udpContent
  · rw [harp, hpackets]; exact h.arpFits
  · rw [htrace]; exact h.windows
  · rw [htx]; exact h.txSlots
  · rw [hrx]; exact h.rxSlots
  · rw [harp]; exact h.arp
  · rw [harp, htrace]; exact h.table
  · rw [hudp]; exact h.udp
  · rw [harp, htrace]; exact h.route

/-- The packets in the UDP queues are now described by what is in memory. -/
theorem Sound.exactContent (h : Sound W U limit held s) :
    Sound W (fun _ _ p content => content = s.packets p) limit held s :=
  { h with udpContent := fun _ _ _ => rfl }

end Held

end MiniIp.Invariant
