import MiniIp.Invariant.DhcpServer
import MiniIp.Invariant.Renewal
import MiniIp.Invariant.Replies

/-!
# The ACK that extends a lease

An ACK that arrives while the lease is bound stays in the queue of port 68. The first call of `dhcp_task` in
`DHCP_RENEWING` (dhcp.c:456-466) sends its RENEW and in the same call takes that ACK for the answer. The transaction id
is the one of the whole lease and does not tell them apart.
-/

set_option autoImplicit false

namespace MiniIp.Guarantees.LeaseFreshness

open MiniIp.Source MiniIp.Invariant MiniIp.Library.Runs MiniIp.Library.Wp

/-- What the client reads next has been queued after a RENEW of the current renewing period. -/
def AnswersRenew (s : Stack) : Prop :=
  ∃ c p, queueHead s dhcpClientPort = some (c, p) ∧ QueuedAfterRenew p s.trace

variable {application : Application} {time : Time} {entropy : ℕ → UInt32} {s t : Stack}

/-- Without a datagram the lease is not extended. -/
theorem head_of_extended (h : Reaches Op.exec (fun _ op => Op.LeavesClientPort op) (booted application time entropy) s)
    (hrenewing : s.dhcp.state = .renewing) (hreturns : dhcpTask s = .ok () t) (hbound : t.dhcp.state = .bound) :
    ∃ c p, queueHead s dhcpClientPort = some (c, p) := by
  obtain ⟨limit, held, hs⟩ := reaches_intact False h fun hfalse => hfalse.elim
  have hrefines := wp_ok (dhcpTask_refines hs) hreturns
  have hawaits : Awaits (client s) := .inr hrenewing
  cases hhead : queueHead s dhcpClientPort with
  | some found => exact ⟨found.1, found.2, rfl⟩
  | none =>
    exfalso
    have hnone : headDatagram s dhcpClientPort = none := by simp [headDatagram, hhead]
    have hnothing : ((timed (client s) s.time).tryReadAck s.ourMac s.time none).2 = .nothing := rfl
    have hstate := congrArg (fun c => c.dhcp.state) hrefines.client
    rw [hnone] at hstate
    have hack : ((timed (client s) s.time).tryReadAck s.ourMac s.time none).2 ≠ .ack := by
      rw [hnothing]
      decide
    have hnack : ((timed (client s) s.time).tryReadAck s.ourMac s.time none).2 ≠ .nack := by
      rw [hnothing]
      decide
    have hkept := congrArg Config.state (task_nothing hawaits hack hnack)
    have hafter : (timed (client s) s.time).dhcp.state = .bound := hkept.symm.trans (hstate.symm.trans hbound)
    have htimed := timed_state hawaits s.time
    rw [hafter] at htimed
    simp at htimed

/-- In every run, a call that takes the client from `DHCP_RENEWING` back to `DHCP_BOUND` takes an answer to a RENEW of
the same period exactly where it is not the first call of that period. -/
theorem extension_answers_renew_iff
    (h : Reaches Op.exec (fun _ op => Op.LeavesClientPort op) (booted application time entropy) s)
    (hrenewing : s.dhcp.state = .renewing) (hreturns : dhcpTask s = .ok () t) (hbound : t.dhcp.state = .bound) :
    AnswersRenew s ↔ s.dhcp.backoff.count ≠ 0 := by
  have hrenewal := reached_renewal h
  constructor
  · rintro ⟨c, p, _, hqueued⟩ hzero
    exact hrenewal.unsent hrenewing hzero hqueued.sent
  · intro hcount
    obtain ⟨c, p, hhead⟩ := head_of_extended h hrenewing hreturns hbound
    obtain ⟨_, hqueued⟩ := hrenewal.sent hrenewing hcount
    have hfirst : (clientQueue s).head? = some p := by
      rw [clientQueue_head, hhead]
      rfl
    exact ⟨c, p, hhead, hqueued p (List.mem_of_head? hfirst)⟩

/-- The next call of the client extends the lease. -/
def extendsNext (count : ℕ) (s : Stack) : Bool :=
  decide (s.dhcp.state = .renewing ∧ s.dhcp.backoff.count = count) &&
    returnsWith (fun t => decide (t.dhcp.state = .bound ∧ t.dhcp.time = s.time)) dhcpTask s

/-- A duplicate of the ACK that has granted the lease. -/
def duplicate : List Op :=
  [.deliverUdp 2 dhcpServerPort dhcpClientPort (serverReply dhcpMessageTypeAck), .receive]

/-- After 60 of the 100 seconds the client begins to renew. -/
def beginsToRenew : List Op := [.tick 60000, .dhcpTask]

/-- The duplicate waits for a client that is bound, and extends the lease 60 seconds later. -/
def duplicateWaits (r : Stack) : Bool :=
  decide (r.dhcp.state = .bound) && ((queueHead r dhcpClientPort).any fun head =>
    runs Op.exec (fun _ _ => true) (fun s => queueHead s dhcpClientPort = some head && extendsNext 0 s) beginsToRenew r)

theorem extends_of_next {count : ℕ} (h : extendsNext count s = true) :
    (s.dhcp.state = .renewing ∧ s.dhcp.backoff.count = count) ∧
      ∃ t, dhcpTask s = .ok () t ∧ t.dhcp.state = .bound ∧ t.dhcp.time = s.time := by
  rw [extendsNext, Bool.and_eq_true, decide_eq_true_eq] at h
  obtain ⟨hrenewing, hextends⟩ := h
  obtain ⟨_, t, hreturns, hcheck⟩ := returns_of_wp (wp_of_returnsWith hextends)
  exact ⟨hrenewing, t, hreturns, of_decide_eq_true hcheck⟩

/-- The duplicate arrives while the lease is bound, and the client takes it for the answer to the RENEW that it sends in
the same call. -/
theorem duplicate_extends :
    ∃ r s t c p, Reaches Op.exec (fun _ op => Op.LeavesClientPort op) (booted zeroApplication 0 fun _ => 0) r ∧
      r.dhcp.state = .bound ∧ queueHead r dhcpClientPort = some (c, p) ∧
      Reaches Op.exec (fun _ op => Op.LeavesClientPort op) r s ∧ s.dhcp.state = .renewing ∧
      queueHead s dhcpClientPort = some (c, p) ∧ dhcpTask s = .ok () t ∧ t.dhcp.state = .bound ∧
      t.dhcp.time = s.time ∧ ¬ AnswersRenew s := by
  have hrun : runs Op.exec (fun _ _ => true) duplicateWaits (getsLease ++ duplicate)
      (booted zeroApplication 0 fun _ => 0) = true := by
    decide +kernel
  have hops : ∀ op ∈ getsLease ++ duplicate, Op.LeavesClientPort op := by
    simp [getsLease, answered, duplicate, Op.deliverUdp, Op.deliver, Op.LeavesClientPort]
  have hops' : ∀ op ∈ beginsToRenew, Op.LeavesClientPort op := by
    simp [beginsToRenew, Op.LeavesClientPort]
  obtain ⟨r, hr, hwaits⟩ := reaches_of_runs _ .start (fun op hop _ _ => hops op hop) hrun
  rw [duplicateWaits, Bool.and_eq_true, decide_eq_true_eq, Option.any_eq_true] at hwaits
  obtain ⟨hbound, ⟨c, p⟩, hhead, hrenews⟩ := hwaits
  obtain ⟨s, hs, hcheck⟩ := reaches_of_runs _ .start (fun op hop _ _ => hops' op hop) hrenews
  rw [Bool.and_eq_true, decide_eq_true_eq] at hcheck
  obtain ⟨hsame, hextends⟩ := hcheck
  obtain ⟨⟨hrenewing, hfirst⟩, t, hreturns, hextended, htime⟩ := extends_of_next hextends
  refine ⟨r, s, t, c, p, hr, hbound, hhead, hs, hrenewing, hsame, hreturns, hextended, htime, ?_⟩
  rintro ⟨_, _, _, hqueued⟩
  exact (reached_renewal (hr.trans hs)).unsent hrenewing hfirst hqueued.sent

/-- An ACK that comes after the RENEW. -/
theorem extension_answers_renew_later :
    ∃ s t, Reaches Op.exec (fun _ op => Op.LeavesClientPort op) (booted zeroApplication 0 fun _ => 0) s ∧
      s.dhcp.state = .renewing ∧ dhcpTask s = .ok () t ∧ t.dhcp.state = .bound ∧ AnswersRenew s := by
  have hrun : runs Op.exec (fun _ _ => true) (extendsNext 1)
      (getsLease ++ beginsToRenew ++ [.dhcpTask] ++ duplicate) (booted zeroApplication 0 fun _ => 0) = true := by
    decide +kernel
  have hops : ∀ op ∈ getsLease ++ beginsToRenew ++ [.dhcpTask] ++ duplicate, Op.LeavesClientPort op := by
    simp [getsLease, answered, beginsToRenew, duplicate, Op.deliverUdp, Op.deliver, Op.LeavesClientPort]
  obtain ⟨s, hs, hcheck⟩ := reaches_of_runs _ .start (fun op hop _ _ => hops op hop) hrun
  obtain ⟨⟨hrenewing, hcount⟩, t, hreturns, hbound, _⟩ := extends_of_next hcheck
  have hanswers := (extension_answers_renew_iff hs hrenewing hreturns hbound).mpr (by rw [hcount]; decide)
  exact ⟨s, t, hs, hrenewing, hreturns, hbound, hanswers⟩

end MiniIp.Guarantees.LeaseFreshness
