import MiniIp.Invariant.ArpPoll
import MiniIp.Invariant.LeaseTimers

/-!
# Address resolution is bounded

Between the call of `arp_send` that takes an entry and the poll that frees it, at most four requests are broadcast for its
address, any two of them more than 1000 ms apart. The first poll more than 1000 ms after the fourth gives the entry up. An
entry that has become valid is freed by the first poll more than 60000 ms later and by none before.

The entry has one field for the time of the last request and that of the mapping (arp.c:16-27), and both are compared by
32-bit differences. These are exact as long as the polls are less than 2^31 ms apart.
-/

set_option autoImplicit false

namespace MiniIp.Guarantees.BoundedResolution

open MiniIp.Source MiniIp.Invariant MiniIp.Library.Runs MiniIp.Library.Wp

/-- The stack, and beside it a clock that does not wrap. By this clock are noted the last poll, the requests for the
address, the newest first, and when the entry became valid. -/
structure Resolving where
  stack : Stack
  clock : ℕ
  polled : ℕ
  requests : List ℕ
  resolvedAt : Option ℕ

/-- The number of requests that have been sent in between. -/
def newRequests (ip : Ip) (s t : Stack) : ℕ := (requestsFor ip t.trace).length - (requestsFor ip s.trace).length

def isPoll : Op → Bool
  | .arpTask => true
  | _ => false

/-- What is noted when the call returns. -/
def Resolving.after (k : Resolving) (ip : Ip) (e : ArpEntryId) (op : Op) (t : Stack) : Resolving where
  stack := t
  clock := k.clock
  polled := if isPoll op then k.clock else k.polled
  requests := List.replicate (newRequests ip k.stack t) k.clock ++ k.requests
  resolvedAt := if (t.arp.entries e).containValidMapping then k.resolvedAt.or (some k.clock) else none

def exec (ip : Ip) (e : ArpEntryId) : Passing → EStateM Halt Resolving Unit
  | .wait milliseconds => modify fun k => { k with
      stack := { k.stack with time := k.stack.time + UInt32.ofNat milliseconds }
      clock := k.clock + milliseconds }
  | .call op => onPart Resolving.stack (fun t k => k.after ip e op t) op.exec

/-- Any call. A poll is less than 2^31 ms behind the last one, and it does not free the entry. -/
def Allowed (e : ArpEntryId) (k : Resolving) : Passing → Prop
  | .wait _ => True
  | .call (.tick _) => False
  | .call .arpTask => k.clock - k.polled < 2 ^ 31 ∧
      wp arpTask (fun _ t => e ∈ t.arp.usedEntries) (fun _ _ => True) k.stack
  | .call _ => True

/-- The call takes the entry for the address. -/
structure Takes (ip : Ip) (e : ArpEntryId) (op : Op) (s t : Stack) : Prop where
  unknown : entryFor s ip = none
  returned : op.exec s = .ok () t
  entry : entryFor t ip = some e

/-- From the call that takes the entry, at 0 ms, until the entry is freed. -/
def SinceTaken (ip : Ip) (e : ArpEntryId) (op : Op) (s t : Stack) : Resolving → Prop :=
  Reaches (exec ip e) (Allowed e) (Resolving.after ⟨s, 0, 0, [], none⟩ ip e op t)

/-- Four requests have been sent, the last one more than 1000 ms ago. -/
def Exhausted (k : Resolving) : Prop := k.requests.length = 4 ∧ ∀ sent ∈ k.requests, sent + 1000 < k.clock

/-- A poll now frees the entry exactly in this case, and the packets with it. -/
def Frees (ip : Ip) (e : ArpEntryId) (k : Resolving) (late : Prop) : Prop :=
  wp arpTask (fun _ t => (e ∉ t.arp.usedEntries ↔ late) ∧ (e ∉ t.arp.usedEntries → PollReleases e ip k.stack t))
    (fun halt _ => halt ≠ .nullPointer) k.stack

structure Bounded (ip : Ip) (e : ArpEntryId) (k : Resolving) : Prop where
  few : k.requests.length ≤ 4
  apart : k.requests.Pairwise fun newer older => older + 1000 < newer
  unresolved : (k.stack.arp.entries e).containValidMapping = false → k.clock - k.polled < 2 ^ 31 →
    Frees ip e k (Exhausted k)
  resolved : (k.stack.arp.entries e).containValidMapping = true → ∃ since, k.resolvedAt = some since ∧
    (k.clock - k.polled < 2 ^ 31 → Frees ip e k (since + 60000 < k.clock))

/-- What the 32-bit counter reads at a time. -/
def stamp (base : Time) (time : ℕ) : Time := base + UInt32.ofNat time

variable {ip : Ip} {e : ArpEntryId} {op : Op} {base interval : Time} {s t : Stack} {k : Resolving} {last since now : ℕ}
  {older : List ℕ}

theorem stamp_add (base : Time) (time milliseconds : ℕ) :
    stamp base time + UInt32.ofNat milliseconds = stamp base (time + milliseconds) := by
  rw [stamp, stamp, UInt32.ofNat_add, UInt32.add_assoc]

/-- The difference is exact as long as the counter has not come round. -/
theorem getElapsed_stamp (base : Time) (hpast : last ≤ now) (hnear : now - last < 2 ^ 32) :
    (getElapsed (stamp base last) (stamp base now)).toNat = now - last := by
  simp only [getElapsed, stamp, UInt32.toNat_sub, UInt32.toNat_add, UInt32.toNat_ofNat']
  have hbase := base.toNat_lt
  omega

theorem elapsed_gt_iff (base interval : Time) (hpast : last ≤ now) (hnear : now - last < 2 ^ 32) :
    getElapsed (stamp base last) (stamp base now) > interval ↔ last + interval.toNat < now := by
  rw [gt_iff_lt, UInt32.lt_iff_toNat_lt, getElapsed_stamp base hpast hnear]
  omega

/-- The address is not resolved, and the last request has been sent at `last`. -/
structure Pending (e : ArpEntryId) (base : Time) (k : Resolving) (last : ℕ) (older : List ℕ) : Prop where
  invalid : (k.stack.arp.entries e).containValidMapping = false
  requests : k.requests = last :: older
  time : (k.stack.arp.entries e).time = stamp base last
  count : (k.stack.arp.entries e).retryCount = older.length
  few : older.length ≤ 3
  past : last ≤ k.clock
  polled : k.polled ≤ last + 1000
  unresolved : k.resolvedAt = none

/-- The address is resolved. -/
structure Resolved (e : ArpEntryId) (base : Time) (k : Resolving) (since : ℕ) : Prop where
  valid : (k.stack.arp.entries e).containValidMapping = true
  resolvedAt : k.resolvedAt = some since
  time : (k.stack.arp.entries e).time = stamp base since
  past : since ≤ k.clock
  polled : k.polled ≤ since + 60000
  few : k.requests.length ≤ 4

inductive Phase (e : ArpEntryId) (base : Time) (k : Resolving) : Prop
  | pending (last : ℕ) (older : List ℕ) (pending : Pending e base k last older)
  | resolved (since : ℕ) (resolved : Resolved e base k since)

/-- The invariant of a run: what the entry holds agrees with what has been noted. -/
structure Timed (ip : Ip) (e : ArpEntryId) (base : Time) (k : Resolving) : Prop where
  slot : Slot e ip k.stack
  clock : k.stack.time = stamp base k.clock
  polled : k.polled ≤ k.clock
  apart : k.requests.Pairwise fun newer older => older + 1000 < newer
  phase : Phase e base k

theorem Pending.due_iff (h : Pending e base k last older) (hclock : k.stack.time = stamp base k.clock)
    (hnear : k.clock - k.polled < 2 ^ 31) : RequestDue k.stack e ↔ last + 1000 < k.clock := by
  have hpast := h.past
  have hpolled := h.polled
  have helapsed := elapsed_gt_iff base arpRetryInterval hpast (by omega)
  rw [RequestDue, h.time, hclock, helapsed]
  exact and_iff_right h.invalid

theorem Pending.releases_iff (h : Pending e base k last older) (hclock : k.stack.time = stamp base k.clock)
    (hnear : k.clock - k.polled < 2 ^ 31) : Releases k.stack e ↔ older.length = 3 ∧ last + 1000 < k.clock := by
  have hdue := h.due_iff hclock hnear
  have hfew := h.few
  have hinvalid : ¬ (k.stack.arp.entries e).containValidMapping = true := by
    rw [h.invalid]
    decide
  have hcount : ¬ (k.stack.arp.entries e).retryCount < arpRetryMaxCount ↔ older.length = 3 := by
    rw [h.count, arpRetryMaxCount]
    omega
  rw [RequestDue, and_iff_right h.invalid] at hdue
  rw [Releases, if_neg hinvalid, hdue, hcount]
  exact and_comm

theorem Resolved.releases_iff (h : Resolved e base k since) (hclock : k.stack.time = stamp base k.clock)
    (hnear : k.clock - k.polled < 2 ^ 31) : Releases k.stack e ↔ since + 60000 < k.clock := by
  have hpast := h.past
  have hpolled := h.polled
  rw [Releases, if_pos h.valid, h.time, hclock]
  exact elapsed_gt_iff base arpEntryExpirationInterval hpast (by omega)

theorem Phase.few (h : Phase e base k) : k.requests.length ≤ 4 := by
  cases h with
  | pending last older pending =>
    have hfew := pending.few
    rw [pending.requests, List.length_cons]
    omega
  | resolved since resolved => exact resolved.few

theorem Timed.wait (h : Timed ip e base k) (milliseconds : ℕ) :
    Timed ip e base { k with
      stack := { k.stack with time := k.stack.time + UInt32.ofNat milliseconds }
      clock := k.clock + milliseconds } := by
  constructor
  · exact ⟨h.slot.once, h.slot.used, h.slot.address, h.slot.only⟩
  · show k.stack.time + UInt32.ofNat milliseconds = stamp base (k.clock + milliseconds)
    rw [h.clock, stamp_add]
  · exact Nat.le_add_right_of_le h.polled
  · exact h.apart
  · cases h.phase with
    | pending last older pending =>
      obtain ⟨hinvalid, hrequests, htime, hcount, hfew, hpast, hpolled, hunresolved⟩ := pending
      exact .pending last older ⟨hinvalid, hrequests, htime, hcount, hfew, Nat.le_add_right_of_le hpast, hpolled, hunresolved⟩
    | resolved since resolved =>
      obtain ⟨hvalid, hresolvedAt, htime, hpast, hpolled, hfew⟩ := resolved
      exact .resolved since ⟨hvalid, hresolvedAt, htime, Nat.le_add_right_of_le hpast, hpolled, hfew⟩

/-- No request has been sent. -/
theorem after_requests (hrequests : requestsFor ip t.trace = requestsFor ip k.stack.trace) (e : ArpEntryId) (op : Op) :
    (k.after ip e op t).requests = k.requests := by
  simp [Resolving.after, newRequests, hrequests]

/-- Any call but a poll. -/
theorem Timed.call (h : Timed ip e base k) (hstep : ArpStep ip k.stack t) (hno : NoEviction t.trace)
    (hop : isPoll op = false) : Timed ip e base (k.after ip e op t) := by
  obtain ⟨hslot, hrests, hrequests⟩ := hstep.slot hno e h.slot
  have hsame := after_requests hrequests e op
  have hpolled : (k.after ip e op t).polled = k.polled := by simp [Resolving.after, hop]
  have hclock : t.time = stamp base k.clock := hstep.time.trans h.clock
  refine ⟨hslot, hclock, ?_, ?_, ?_⟩
  · rw [hpolled]
    exact h.polled
  · rw [hsame]
    exact h.apart
  · cases h.phase with
    | pending last older pending =>
      rcases hrests with ⟨queue, count, hentry⟩ | ⟨_, hvalid, htime⟩
      · refine .pending last older ⟨?_, ?_, ?_, ?_, pending.few, pending.past, ?_, ?_⟩
        · exact (congrArg ArpEntry.containValidMapping hentry).trans pending.invalid
        · rw [hsame, pending.requests]
        · exact (congrArg ArpEntry.time hentry).trans pending.time
        · exact (congrArg ArpEntry.retryCount hentry).trans pending.count
        · rw [hpolled]
          exact pending.polled
        · have hinvalid : (t.arp.entries e).containValidMapping = false := by rw [hentry, pending.invalid]
          simp [Resolving.after, hinvalid]
      · refine .resolved k.clock ⟨hvalid, ?_, htime.trans hclock, le_refl _, ?_, ?_⟩
        · simp [Resolving.after, hvalid, pending.unresolved]
        · rw [hpolled]
          exact Nat.le_add_right_of_le h.polled
        · rw [hsame]
          exact h.phase.few
    | resolved since resolved =>
      rcases hrests with ⟨queue, count, hentry⟩ | ⟨hinvalid, _, _⟩
      · have hvalid : (t.arp.entries e).containValidMapping = true := by rw [hentry, resolved.valid]
        refine .resolved since ⟨hvalid, ?_, ?_, resolved.past, ?_, ?_⟩
        · simp [Resolving.after, hvalid, resolved.resolvedAt]
        · exact (congrArg ArpEntry.time hentry).trans resolved.time
        · rw [hpolled]
          exact resolved.polled
        · rw [hsame]
          exact resolved.few
      · rw [resolved.valid] at hinvalid
        cases hinvalid

/-- A request has been sent behind the last one. -/
theorem apart_cons (h : (last :: older).Pairwise fun newer older => older + 1000 < newer) (hlate : last + 1000 < now) :
    (now :: last :: older).Pairwise fun newer older => older + 1000 < newer := by
  refine List.pairwise_cons.mpr ⟨fun sent hsent => ?_, h⟩
  rcases List.mem_cons.mp hsent with rfl | hmem
  · exact hlate
  · have hbefore := (List.pairwise_cons.mp h).1 sent hmem
    omega

theorem Timed.retried (h : Timed ip e base k) (hnear : k.clock - k.polled < 2 ^ 31) (calm : ¬ Releases k.stack e)
    (due : RequestDue k.stack e) (kept : PollKeeps e ip ((k.stack.arp.entries e).retryCount + 1) k.stack.time k.stack t)
    (hone : (requestsFor ip t.trace).length = (requestsFor ip k.stack.trace).length + 1)
    (htime : t.time = k.stack.time) : Timed ip e base (k.after ip e .arpTask t) := by
  have hrequests : (k.after ip e .arpTask t).requests = k.clock :: k.requests := by
    simp [Resolving.after, newRequests, hone]
  have hentry := kept.entry
  cases h.phase with
  | pending last older pending =>
    have hlate := (pending.due_iff h.clock hnear).mp due
    have hfew : older.length ≠ 3 := fun hthree => calm ((pending.releases_iff h.clock hnear).mpr ⟨hthree, hlate⟩)
    have hmost := pending.few
    have hapart := h.apart
    have hinvalid : (t.arp.entries e).containValidMapping = false := by rw [hentry, pending.invalid]
    rw [pending.requests] at hapart hrequests
    refine ⟨kept.slot, htime.trans h.clock, le_refl _, ?_, .pending k.clock (last :: older) ⟨hinvalid, hrequests, ?_, ?_, ?_,
      le_refl _, Nat.le_add_right _ _, ?_⟩⟩
    · rw [hrequests]
      exact apart_cons hapart hlate
    · exact (congrArg ArpEntry.time hentry).trans h.clock
    · have hcount := congrArg ArpEntry.retryCount hentry
      rw [pending.count] at hcount
      exact hcount
    · rw [List.length_cons]
      omega
    · simp [Resolving.after, hinvalid]
  | resolved since resolved =>
    have hinvalid := due.1
    rw [resolved.valid] at hinvalid
    cases hinvalid

theorem Timed.idle (h : Timed ip e base k) (hnear : k.clock - k.polled < 2 ^ 31) (calm : ¬ Releases k.stack e)
    (notDue : ¬ RequestDue k.stack e)
    (kept : PollKeeps e ip (k.stack.arp.entries e).retryCount (k.stack.arp.entries e).time k.stack t)
    (hrequests : requestsFor ip t.trace = requestsFor ip k.stack.trace) (htime : t.time = k.stack.time) :
    Timed ip e base (k.after ip e .arpTask t) := by
  have hsame := after_requests hrequests e .arpTask
  have hentry : t.arp.entries e = k.stack.arp.entries e := kept.entry
  refine ⟨kept.slot, htime.trans h.clock, le_refl _, ?_, ?_⟩
  · rw [hsame]
    exact h.apart
  · cases h.phase with
    | pending last older pending =>
      rw [pending.due_iff h.clock hnear, not_lt] at notDue
      have hinvalid : (t.arp.entries e).containValidMapping = false := by rw [hentry, pending.invalid]
      refine .pending last older ⟨hinvalid, ?_, ?_, ?_, pending.few, pending.past, notDue, ?_⟩
      · rw [hsame, pending.requests]
      · exact (congrArg ArpEntry.time hentry).trans pending.time
      · exact (congrArg ArpEntry.retryCount hentry).trans pending.count
      · simp [Resolving.after, hinvalid]
    | resolved since resolved =>
      rw [resolved.releases_iff h.clock hnear, not_lt] at calm
      have hvalid : (t.arp.entries e).containValidMapping = true := by rw [hentry, resolved.valid]
      refine .resolved since ⟨hvalid, ?_, ?_, resolved.past, calm, ?_⟩
      · simp [Resolving.after, hvalid, resolved.resolvedAt]
      · exact (congrArg ArpEntry.time hentry).trans resolved.time
      · rw [hsame]
        exact resolved.few

/-- A poll that does not free the entry. -/
theorem Timed.poll (h : Timed ip e base k) (heffect : PollEffect e ip k.stack t) (htime : t.time = k.stack.time)
    (hused : e ∈ t.arp.usedEntries) (hnear : k.clock - k.polled < 2 ^ 31) :
    Timed ip e base (k.after ip e .arpTask t) := by
  cases heffect with
  | released _ effect => exact absurd hused effect.gone
  | retried calm due kept requests => exact h.retried hnear calm due kept requests htime
  | idle calm notDue kept requests => exact h.idle hnear calm notDue kept requests htime

variable {application : Application} {time : Time} {entropy : ℕ → UInt32} {ok : Stack → Op → Prop}

/-- The entry is the only one for the address, and no request has been sent but the first. -/
theorem takes_timed (h : Reaches Op.exec ok (booted application time entropy) s) (htakes : Takes ip e op s t)
    (hno : NoEviction t.trace) : Timed ip e s.time (Resolving.after ⟨s, 0, 0, [], none⟩ ip e op t) := by
  have hop : ¬ Op.TouchesTimers op := by
    intro htouches
    have hnone := wp_ok (touchesTimers_unknown htouches htakes.unknown) htakes.returned
    rw [htakes.entry] at hnone
    cases hnone
  have hstep := wp_ok (exec_arpStep hop ip s) htakes.returned
  obtain ⟨limit, held, hs⟩ := reaches_intact False h fun w => w.elim
  have htable := hs.table (noEviction_suffix hno hstep.past)
  have hnoSlot : NoSlot ip s := by
    refine ⟨htable.nodup, fun x hx => ?_⟩
    simpa using List.find?_eq_none.mp htakes.unknown x hx
  rcases hstep.noSlot hno hnoSlot with ⟨hnone, _⟩ | ⟨x, hslot, hfresh, hone⟩
  · have hip : (t.arp.entries e).ip = ip := by simpa using List.find?_some htakes.entry
    exact absurd hip (hnone.none e (List.mem_of_find?_eq_some htakes.entry))
  · have hx : e = x := by
      have hip : (t.arp.entries e).ip = ip := by simpa using List.find?_some htakes.entry
      exact hslot.only e (List.mem_of_find?_eq_some htakes.entry) hip
    subst hx
    have hnew : newRequests ip s t = 1 := by
      rw [newRequests, hone]
      omega
    have hzero : stamp s.time 0 = s.time := by simp [stamp]
    have htime : (t.arp.entries e).time = stamp s.time 0 := by rw [hfresh.time, hstep.time, hzero]
    refine ⟨hslot, hstep.time.trans hzero.symm, ?_, ?_, ?_⟩
    · simp [Resolving.after]
    · simp [Resolving.after, hnew]
    · cases hvalid : (t.arp.entries e).containValidMapping with
      | false =>
        refine .pending 0 [] ⟨hvalid, ?_, htime, hfresh.count hvalid, Nat.zero_le 3, le_refl 0, ?_, ?_⟩
        · simp [Resolving.after, hnew]
        · simp [Resolving.after]
        · simp [Resolving.after, hvalid]
      | true =>
        refine .resolved 0 ⟨hvalid, ?_, htime, le_refl 0, ?_, ?_⟩
        · simp [Resolving.after, hvalid]
        · simp [Resolving.after]
        · simp [Resolving.after, hnew]

theorem exec_timed (h : NoEviction k.stack.trace → Timed ip e base k) {passing : Passing} (hallowed : Allowed e k passing) :
    wp (exec ip e passing) (fun _ k' => NoEviction k'.stack.trace → Timed ip e base k') (fun _ _ => True) k := by
  cases passing with
  | wait milliseconds =>
    rw [exec, wp_modify]
    exact fun hno => (h hno).wait milliseconds
  | call op =>
    rw [exec, wp_onPart]
    by_cases htouches : Op.TouchesTimers op
    · cases op with
      | tick now => exact hallowed.elim
      | arpTask =>
        obtain ⟨hnear, hkept⟩ := hallowed
        have hlater : wp (Op.exec .arpTask) (fun _ t => Later k.stack t) (fun _ _ => True) k.stack :=
          exec_later id fun now heq => by cases heq
        by_cases hno : NoEviction k.stack.trace
        · have hk := h hno
          apply wp_partial (wp_and hkept (arpTask_effect hk.slot))
          rintro _ t ⟨hused, _, htime, heffect⟩ _
          exact hk.poll heffect htime hused hnear
        · apply wp_next hlater
          intro _ t ht hno'
          exact absurd (noEviction_suffix hno' ht.trace) hno
      | _ => exact htouches.elim
    · have hop : isPoll op = false := by
        cases op with
        | arpTask => exact absurd trivial htouches
        | _ => rfl
      apply wp_next (exec_arpStep htouches ip k.stack)
      intro _ t ht hno
      exact (h (noEviction_suffix hno ht.past)).call ht hno hop

theorem SinceTaken.reached (h : Reaches Op.exec (fun _ _ => True) (booted application time entropy) t)
    (hrun : SinceTaken ip e op s t k) : Reaches Op.exec (fun _ _ => True) (booted application time entropy) k.stack := by
  apply hrun.invariant (I := fun k => Reaches Op.exec (fun _ _ => True) (booted application time entropy) k.stack) h
  intro k passing _ hreach _
  cases passing with
  | wait milliseconds =>
    rw [exec, wp_modify]
    exact hreach.step (.tick (k.stack.time + UInt32.ofNat milliseconds)) trivial rfl
  | call op =>
    rw [exec, wp_onPart]
    exact hreach.next trivial

theorem SinceTaken.timed (h : Reaches Op.exec ok (booted application time entropy) s) (htakes : Takes ip e op s t)
    (hrun : SinceTaken ip e op s t k) : NoEviction k.stack.trace → Timed ip e s.time k := by
  apply hrun.invariant (I := fun k => NoEviction k.stack.trace → Timed ip e s.time k)
  · exact takes_timed h htakes
  · intro k passing _ htimed hallowed
    exact exec_timed htimed hallowed

theorem Pending.exhausted_iff (h : Pending e base k last older)
    (hapart : k.requests.Pairwise fun newer older => older + 1000 < newer) :
    Exhausted k ↔ older.length = 3 ∧ last + 1000 < k.clock := by
  rw [h.requests] at hapart
  have hbefore := (List.pairwise_cons.mp hapart).1
  have hall : (∀ sent ∈ last :: older, sent + 1000 < k.clock) ↔ last + 1000 < k.clock := by
    constructor
    · intro hsent
      exact hsent last List.mem_cons_self
    · intro hlast sent hsent
      rcases List.mem_cons.mp hsent with rfl | hmem
      · exact hlast
      · have hearlier := hbefore sent hmem
        omega
  rw [Exhausted, h.requests, hall, List.length_cons]
  omega

theorem frees_of_releases {limit : ℕ} {held : List PacketId} {late : Prop} (hslot : Slot e ip k.stack)
    (hsound : Sound False (fun _ _ _ _ => True) limit held k.stack) (hlate : Releases k.stack e ↔ late) :
    Frees ip e k late := by
  apply wp_mono (wp_and (arpTask_effect hslot) (arpTask_sound hsound (le_refl _)))
  · rintro _ t ⟨⟨_, _, heffect⟩, _⟩
    exact ⟨heffect.gone_iff.trans hlate, heffect.releases⟩
  · intro halt t hstopped
    exact hstopped.2.node

/-- Whatever is called while the entry is in use, resolution is bounded, as long as no entry is evicted. -/
theorem resolution_bounded (h : Reaches Op.exec ok (booted application time entropy) s) (htakes : Takes ip e op s t)
    (hrun : SinceTaken ip e op s t k) (hno : NoEviction k.stack.trace) : Bounded ip e k := by
  have htimed := hrun.timed h htakes hno
  have hany : Reaches Op.exec (fun _ _ => True) (booted application time entropy) s := h.mono fun _ _ _ => trivial
  obtain ⟨limit, held, hsound⟩ := reaches_intact False (hrun.reached (hany.step op trivial htakes.returned)) fun w => w.elim
  have hslot := htimed.slot
  refine ⟨htimed.phase.few, htimed.apart, fun hinvalid hnear => ?_, fun hvalid => ?_⟩
  · cases htimed.phase with
    | pending last older pending =>
      apply frees_of_releases hslot hsound
      rw [pending.exhausted_iff htimed.apart]
      exact pending.releases_iff htimed.clock hnear
    | resolved since resolved =>
      rw [resolved.valid] at hinvalid
      cases hinvalid
  · cases htimed.phase with
    | pending last older pending =>
      rw [pending.invalid] at hvalid
      cases hvalid
    | resolved since resolved =>
      refine ⟨since, resolved.resolvedAt, fun hnear => ?_⟩
      exact frees_of_releases hslot hsound (resolved.releases_iff htimed.clock hnear)

/-- Compute whether a step is allowed. -/
def stepGuard (e : ArpEntryId) (k : Resolving) : Passing → Bool
  | .wait _ => true
  | .call .arpTask => k.clock - k.polled < 2 ^ 31 &&
      returnsWith (fun t => decide (e ∈ t.arp.usedEntries)) arpTask k.stack
  | .call _ => false

theorem allowed_of_guard {passing : Passing} (h : stepGuard e k passing = true) : Allowed e k passing := by
  cases passing with
  | wait milliseconds => trivial
  | call op =>
    cases op with
    | arpTask =>
      simp only [stepGuard, Bool.and_eq_true, decide_eq_true_eq] at h
      obtain ⟨hnear, hreturns⟩ := h
      refine ⟨hnear, wp_partial (wp_of_returnsWith hreturns) fun _ t ht => ?_⟩
      exact of_decide_eq_true ht
    | _ => cases h

/-- Three polls that send a request again, and one that comes too early. -/
def unansweredRun : List Passing :=
  [.wait 1001, .call .arpTask, .wait 1000, .call .arpTask, .wait 1, .call .arpTask, .wait 1001, .call .arpTask, .wait 1001]

def unansweredCheck (k : Resolving) : Bool :=
  NoEviction k.stack.trace && k.requests = [3003, 2002, 1001, 0] && k.clock = 4004 &&
    (k.stack.arp.entries 7).packetQueue.length = 1

def unansweredStart (s : Stack) : Bool :=
  entryFor s 0x0A000001 = none &&
    returnsWith (fun t => entryFor t 0x0A000001 = some 7 &&
      runs (exec 0x0A000001 7) (stepGuard 7) unansweredCheck unansweredRun
        (Resolving.after ⟨s, 0, 0, [], none⟩ 0x0A000001 7 (.sendToIp [0] 0x0A000001) t))
      (Op.exec (.sendToIp [0] 0x0A000001)) s

/-- Nobody answers, and the next poll gives the entry up. -/
theorem resolution_bounded_unanswered :
    ∃ s t k, Reaches Op.exec (fun _ _ => True) (booted zeroApplication 0 fun _ => 0) s ∧
      Takes 0x0A000001 7 (.sendToIp [0] 0x0A000001) s t ∧
      SinceTaken 0x0A000001 7 (.sendToIp [0] 0x0A000001) s t k ∧ unansweredCheck k = true ∧ Bounded 0x0A000001 7 k := by
  have hrun : runs Op.exec (fun _ _ => true) unansweredStart [.setOurIp 0x0A000063]
      (booted zeroApplication 0 fun _ => 0) = true := by
    decide +kernel
  obtain ⟨s, hreach, hcheck⟩ := reaches_of_runs (fun _ _ => True) .start (fun _ _ _ _ => trivial) hrun
  simp only [unansweredStart, Bool.and_eq_true, decide_eq_true_eq] at hcheck
  obtain ⟨hunknown, hreturns⟩ := hcheck
  obtain ⟨_, t, hreturned, hlater⟩ := returns_of_wp (wp_of_returnsWith hreturns)
  simp only [Bool.and_eq_true, decide_eq_true_eq] at hlater
  obtain ⟨hentry, hruns⟩ := hlater
  have htakes : Takes 0x0A000001 7 (.sendToIp [0] 0x0A000001) s t := ⟨hunknown, hreturned, hentry⟩
  obtain ⟨k, hsince, hk⟩ := reaches_of_runs (Allowed 7) .start (fun _ _ _ => allowed_of_guard) hruns
  have hno : NoEviction k.stack.trace := by
    simp only [unansweredCheck, Bool.and_eq_true, decide_eq_true_eq] at hk
    exact hk.1.1.1
  exact ⟨s, t, k, hreach, htakes, hsince, hk, resolution_bounded hreach htakes hsince hno⟩

end MiniIp.Guarantees.BoundedResolution
