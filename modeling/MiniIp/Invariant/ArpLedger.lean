import MiniIp.Invariant.Sound

/-!
# The packets for one address

`callsTo` reads off a trace the packets `arp_send` was given for an address,
`droppedFor` those of them that were given back while they waited, and
`passedFor` those that were passed to `mac_send`. `Outstanding` says which ones
still wait; an event that is `Beside` these changes none of the four.
-/

set_option autoImplicit false

namespace MiniIp.Invariant

open MiniIp.Source

/-- A packet that is given to `arp_send` for the address. -/
def Event.call (ip : Ip) : Event → Option PacketId
  | .arpSend packet ip' => if ip' = ip then some packet else none
  | _ => none

/-- The newest first, like the other two. -/
def callsTo (ip : Ip) (trace : List Event) : List PacketId := trace.filterMap (Event.call ip)

/-- The packets that were freed while they waited for the address, the latest first. -/
def droppedFor (ip : Ip) : List Event → List PacketId
  | [] => []
  | .freed packet :: past =>
    if pending past packet = some ip then packet :: droppedFor ip past else droppedFor ip past
  | _ :: past => droppedFor ip past

/-- The packets for the address that have been given to the MAC layer, the latest first. -/
def passedFor (ip : Ip) : List Event → List PacketId
  | [] => []
  | .macSend packet _ _ :: past =>
    if pending past packet = some ip then packet :: passedFor ip past else passedFor ip past
  | _ :: past => passedFor ip past

/-- The packets in `queue` wait for the address, and no others wait. -/
structure Outstanding (ip : Ip) (queue : List PacketId) (trace : List Event) : Prop where
  present : ∀ p ∈ queue, pending trace p = some ip
  absent : ∀ p, p ∉ queue → pending trace p = none

/-- An event that has nothing to do with the packets in the queue. -/
def Beside (queue : List PacketId) : Event → Prop
  | .arpSend .. => False
  | .macSend packet .. => packet ∉ queue
  | .freed packet => packet ∉ queue
  | _ => True

/-- What has become of the packets for the address. -/
structure Accounts where
  calls : List PacketId
  dropped : List PacketId
  passed : List PacketId

/-- The three accounts of an address. -/
def accounts (ip : Ip) (trace : List Event) : Accounts := ⟨callsTo ip trace, droppedFor ip trace, passedFor ip trace⟩

variable {ip : Ip} {queue : List PacketId} {past new : List Event} {event : Event} {p : PacketId} {mac : Mac}
  {etherType : UInt16}

/-- Nothing has been called for yet. -/
theorem Outstanding.start (ip : Ip) : Outstanding ip [] [] := ⟨by simp, fun _ _ => rfl⟩

/-- A packet that did not wait does not wait when it has been passed on or freed. -/
theorem Outstanding.ended (h : Outstanding ip queue past) (hp : p ∉ queue)
    (hevent : ∀ q, pending (event :: past) q = if p = q then none else pending past q) :
    Outstanding ip queue (event :: past) := by
  constructor
  · intro q hq
    have hne : p ≠ q := by
      rintro rfl
      exact hp hq
    rw [hevent q, if_neg hne]
    exact h.present q hq
  · intro q hq
    rw [hevent q]
    split
    · rfl
    · exact h.absent q hq

theorem Outstanding.beside (h : Outstanding ip queue past) (hb : Beside queue event) :
    Outstanding ip queue (event :: past) := by
  cases event with
  | arpSend q ip' => exact hb.elim
  | macSend q mac etherType => exact h.ended hb fun _ => rfl
  | freed q => exact h.ended hb fun _ => rfl
  | _ => exact ⟨h.present, h.absent⟩

theorem accounts_beside (h : Outstanding ip queue past) (hb : Beside queue event) :
    accounts ip (event :: past) = accounts ip past := by
  cases event with
  | arpSend q ip' => exact hb.elim
  | macSend q mac etherType =>
    have hnone : pending past q = none := h.absent q hb
    rw [accounts, passedFor, if_neg (by simp [hnone])]
    rfl
  | freed q =>
    have hnone : pending past q = none := h.absent q hb
    rw [accounts, droppedFor, if_neg (by simp [hnone])]
    rfl
  | _ => rfl

theorem Outstanding.besides (h : Outstanding ip queue past) (hnew : ∀ event ∈ new, Beside queue event) :
    Outstanding ip queue (new ++ past) := by
  induction new with
  | nil => exact h
  | cons event rest ih =>
    have hrest := ih fun e he => hnew e (List.mem_cons_of_mem _ he)
    exact hrest.beside (hnew event List.mem_cons_self)

theorem accounts_besides (h : Outstanding ip queue past) (hnew : ∀ event ∈ new, Beside queue event) :
    accounts ip (new ++ past) = accounts ip past := by
  induction new with
  | nil => rfl
  | cons event rest ih =>
    have hrest : ∀ e ∈ rest, Beside queue e := fun e he => hnew e (List.mem_cons_of_mem _ he)
    exact (accounts_beside (h.besides hrest) (hnew event List.mem_cons_self)).trans (ih hrest)

/-- A call adds the packet to what is outstanding. -/
theorem Outstanding.called (h : Outstanding ip queue past) (p : PacketId) :
    Outstanding ip (queue ++ [p]) (.arpSend p ip :: past) := by
  constructor
  · intro q hq
    rw [pending]
    split
    · rfl
    · next hne =>
      have hmem : q ∈ queue := by simpa [Ne.symm hne] using hq
      exact h.present q hmem
  · intro q hq
    rw [List.mem_append, List.mem_singleton, not_or] at hq
    rw [pending, if_neg (Ne.symm hq.2)]
    exact h.absent q hq.1

theorem accounts_called (ip : Ip) (past : List Event) (p : PacketId) : accounts ip (.arpSend p ip :: past) =
    ⟨p :: (accounts ip past).calls, (accounts ip past).dropped, (accounts ip past).passed⟩ := by
  have hcalls : callsTo ip (.arpSend p ip :: past) = p :: callsTo ip past :=
    List.filterMap_cons_some (if_pos rfl)
  rw [accounts, hcalls]
  rfl

/-- The first packet of the queue no longer waits. -/
theorem Outstanding.left (h : Outstanding ip (p :: queue) past) (hp : p ∉ queue)
    (hevent : ∀ q, pending (event :: past) q = if p = q then none else pending past q) :
    Outstanding ip queue (event :: past) := by
  constructor
  · intro q hq
    have hne : p ≠ q := by
      rintro rfl
      exact hp hq
    rw [hevent q, if_neg hne]
    exact h.present q (List.mem_cons_of_mem p hq)
  · intro q hq
    rw [hevent q]
    split
    · rfl
    · next hne =>
      apply h.absent q
      rw [List.mem_cons, not_or]
      exact ⟨Ne.symm hne, hq⟩

theorem Outstanding.freed (h : Outstanding ip (p :: queue) past) (hp : p ∉ queue) :
    Outstanding ip queue (.freed p :: past) :=
  h.left hp fun _ => rfl

theorem accounts_freed (h : Outstanding ip (p :: queue) past) : accounts ip (.freed p :: past) =
    ⟨(accounts ip past).calls, p :: (accounts ip past).dropped, (accounts ip past).passed⟩ := by
  rw [accounts, droppedFor, if_pos (h.present p List.mem_cons_self)]
  rfl

theorem Outstanding.passed (h : Outstanding ip (p :: queue) past) (hp : p ∉ queue) (mac : Mac) (etherType : UInt16) :
    Outstanding ip queue (.macSend p mac etherType :: past) :=
  h.left hp fun _ => rfl

theorem accounts_passed (h : Outstanding ip (p :: queue) past) (mac : Mac) (etherType : UInt16) :
    accounts ip (.macSend p mac etherType :: past) =
      ⟨(accounts ip past).calls, (accounts ip past).dropped, p :: (accounts ip past).passed⟩ := by
  rw [accounts, passedFor, if_pos (h.present p List.mem_cons_self)]
  rfl

/-- The events take one queue to the next and change the accounts. -/
structure Turns (ip : Ip) (queue queue' : List PacketId) (change : Accounts → Accounts) (new : List Event) : Prop where
  waiting : ∀ past, Outstanding ip queue past → Outstanding ip queue' (new ++ past)
  accounts : ∀ past, Outstanding ip queue past → accounts ip (new ++ past) = change (accounts ip past)

def Accounts.call (p : PacketId) (a : Accounts) : Accounts := { a with calls := p :: a.calls }
def Accounts.drop (p : PacketId) (a : Accounts) : Accounts := { a with dropped := p :: a.dropped }
def Accounts.pass (p : PacketId) (a : Accounts) : Accounts := { a with passed := p :: a.passed }

/-- The packets are passed on, the first of them first. -/
def Accounts.passAll (packets : List PacketId) (a : Accounts) : Accounts :=
  { a with passed := packets.reverse ++ a.passed }

namespace Turns

variable {queue' queue'' : List PacketId} {change change' : Accounts → Accounts} {new' : List Event}

theorem trans (h : Turns ip queue queue' change new) (h' : Turns ip queue' queue'' change' new') :
    Turns ip queue queue'' (change' ∘ change) (new' ++ new) := by
  constructor
  · intro past hpast
    rw [List.append_assoc]
    exact h'.waiting _ (h.waiting past hpast)
  · intro past hpast
    rw [List.append_assoc, h'.accounts _ (h.waiting past hpast), h.accounts past hpast]
    rfl

theorem besides (h : ∀ event ∈ new, Beside queue event) : Turns ip queue queue id new :=
  ⟨fun _ hpast => hpast.besides h, fun _ hpast => accounts_besides hpast h⟩

theorem called (p : PacketId) : Turns ip queue (queue ++ [p]) (.call p) [.arpSend p ip] :=
  ⟨fun _ hpast => hpast.called p, fun past _ => accounts_called ip past p⟩

theorem freed (hp : p ∉ queue) : Turns ip (p :: queue) queue (.drop p) [.freed p] :=
  ⟨fun _ hpast => hpast.freed hp, fun _ hpast => accounts_freed hpast⟩

theorem passed (hp : p ∉ queue) (mac : Mac) (etherType : UInt16) :
    Turns ip (p :: queue) queue (.pass p) [.macSend p mac etherType] :=
  ⟨fun _ hpast => hpast.passed hp mac etherType, fun _ hpast => accounts_passed hpast mac etherType⟩

end Turns

end MiniIp.Invariant
