import Mathlib.Order.Nat
import Mathlib.Data.Nat.Count
import MiniIp.Invariant.BackoffBounds
import MiniIp.Invariant.ClientBackoff

/-!
# The retransmission schedule

The first poll after a reset fires. The comment in `next_backoff` (backoff.c:26-27) has the start timeout used after that
one, but its test of the counter comes behind the increment, so the timeout is doubled from the first call on. Every
retransmission waits as long as the next one should (`firesAfter`): it is on schedule exactly for a configuration
that has next to nothing to double (`schedule_iff`).
-/

set_option autoImplicit false

namespace MiniIp.Guarantees.RetransmissionSchedule

open MiniIp.Source MiniIp.Invariant

/-- The clock at a poll, and the value `random()` returns there. -/
structure Poll where
  now : Time
  random : UInt32

/-- The backoff before each of the polls `if (backoff_timeout(..)) { send(..); next_backoff(..); }`. -/
def state (b : Backoff) (polls : ℕ → Poll) : ℕ → Backoff
  | 0 => b
  | i + 1 => Backoff.sent (state b polls i) (polls i).now (polls i).random

def fires (b : Backoff) (polls : ℕ → Poll) (i : ℕ) : Bool := backoffTimeout (state b polls i) (polls i).now

/-- The firings among the first polls. -/
def firings (b : Backoff) (polls : ℕ → Poll) (i : ℕ) : ℕ := Nat.count (fun j => fires b polls j = true) i

/-- `n` retransmissions wait this long on average, the first one the start timeout. -/
def nominal (b : Backoff) (n : ℕ) : ℕ := min (b.startTimeout.toNat * 2 ^ (n - 1)) b.maxTimeout.toNat

/-- Between the firing `i` and the poll `j` no poll fires. -/
def Awaited (b : Backoff) (polls : ℕ → Poll) (i j : ℕ) : Prop := i < j ∧ ∀ k, i < k → k < j → fires b polls k = false

/-- The next firing is at the first poll more than `wait` milliseconds after the firing `i`. -/
def NextAfter (b : Backoff) (polls : ℕ → Poll) (i wait : ℕ) : Prop :=
  ∀ j, Awaited b polls i j → (fires b polls j = true ↔ wait < (getElapsed (polls i).now (polls j).now).toNat)

/-- The first poll fires, and after the n-th firing the next one comes after the n-th nominal time, give or take its
`jitter_fraction`-th part. -/
structure Scheduled (b : Backoff) (polls : ℕ → Poll) : Prop where
  first : fires b polls 0 = true
  next : ∀ i, fires b polls i = true → ∃ wait,
    wait ≤ nominal b (firings b polls (i + 1)) + nominal b (firings b polls (i + 1)) / b.jitterFraction.toNat ∧
      nominal b (firings b polls (i + 1)) ≤ wait + nominal b (firings b polls (i + 1)) / b.jitterFraction.toNat ∧
      NextAfter b polls i wait

/-- There is next to nothing to double. -/
def NoDoubling (b : Backoff) : Prop :=
  b.maxTimeout.toNat ≤ b.startTimeout.toNat + 1 ∧
    b.maxTimeout.toNat / b.jitterFraction.toNat = b.startTimeout.toNat / b.jitterFraction.toNat

variable {b : Backoff} {polls : ℕ → Poll} {i j n : ℕ}

theorem state_fired (h : fires b polls i = true) :
    state b polls (i + 1) = nextBackoff (state b polls i) (polls i).now (polls i).random := if_pos h

theorem state_waited (h : fires b polls i = false) : state b polls (i + 1) = state b polls i :=
  if_neg (Bool.eq_false_iff.mp h)

theorem state_settings (b : Backoff) (polls : ℕ → Poll) (i : ℕ) : SameSettings b (state b polls i) := by
  induction i with
  | zero => exact ⟨rfl, rfl, rfl⟩
  | succ i ih =>
    cases h : fires b polls i with
    | true =>
      rw [state_fired h]
      exact ih.trans (nextBackoff_settings _ _ _)
    | false =>
      rw [state_waited h]
      exact ih

theorem state_withinBounds (h : WithinBounds b) (polls : ℕ → Poll) (i : ℕ) : WithinBounds (state b polls i) := by
  induction i with
  | zero => exact h
  | succ i ih =>
    cases hfires : fires b polls i with
    | true =>
      rw [state_fired hfires]
      exact ih.next _ _
    | false =>
      rw [state_waited hfires]
      exact ih

/-- The timeout has been doubled at each firing, also the first. -/
theorem state_timeout (h : WithinBounds b) (hstart : b.timeout = b.startTimeout) (polls : ℕ → Poll) (i : ℕ) :
    (state b polls i).timeout.toNat =
      min (b.startTimeout.toNat * 2 ^ firings b polls i) b.maxTimeout.toNat := by
  induction i with
  | zero =>
    have hmaximum := h.configured.maximum
    rw [state, hstart, firings, Nat.count_zero, pow_zero]
    omega
  | succ i ih =>
    rw [firings, Nat.count_succ, ← firings]
    cases hfires : fires b polls i with
    | true =>
      rw [state_fired hfires, (state_withinBounds h polls i).timeout_next, ih, (state_settings b polls i).maximum,
        if_pos rfl, pow_succ, ← Nat.mul_assoc]
      omega
    | false => rw [state_waited hfires, ih, if_neg (by decide), Nat.add_zero]

/-- Nothing changes up to the next firing. -/
theorem state_awaited (h : Awaited b polls i j) : state b polls j = state b polls (i + 1) := by
  obtain ⟨hless, hbetween⟩ := h
  induction j with
  | zero => omega
  | succ j ih =>
    rcases Nat.lt_succ_iff_lt_or_eq.mp hless with hlt | rfl
    · rw [state_waited (hbetween j hlt (Nat.lt_succ_self j))]
      exact ih hlt fun k hik hkj => hbetween k hik (Nat.lt_succ_of_lt hkj)
    · rfl

/-- The time that is waited after a firing. -/
def waited (b : Backoff) (n : ℕ) (random : UInt32) : ℕ :=
  min (b.startTimeout.toNat * 2 ^ n) b.maxTimeout.toNat +
    random.toNat % (min (b.startTimeout.toNat * 2 ^ n) b.maxTimeout.toNat / b.jitterFraction.toNat)

/-- After the n-th firing the timeout has been doubled n times. -/
theorem firesAfter (h : WithinBounds b) (hstart : b.timeout = b.startTimeout)
    (hfires : fires b polls i = true) : NextAfter b polls i (waited b (firings b polls (i + 1)) (polls i).random) := by
  intro j hj
  have hjitter := (state_withinBounds h polls i).jitter_next (polls i).now (polls i).random
  rw [← state_fired hfires, state_timeout h hstart, (state_settings b polls i).fraction] at hjitter
  have htime : (state b polls (i + 1)).time = (polls i).now := by rw [state_fired hfires, nextBackoff_time]
  have hnonzero : (state b polls (i + 1)).count ≠ 0 := by
    rw [state_fired hfires, nextBackoff_count]
    exact Nat.succ_ne_zero _
  rw [waited, ← hjitter, ← htime, ← UInt32.lt_iff_toNat_lt]
  simp [fires, backoffTimeout, state_awaited hj, hnonzero]

theorem firings_pos (h : fires b polls i = true) : 1 ≤ firings b polls (i + 1) := by
  rw [firings, Nat.count_succ, if_pos h]
  exact Nat.succ_pos _

/-- From the first firing on the timeout is the maximum, which is nearly the start timeout. -/
theorem waited_near (h : Configured b) (hnone : NoDoubling b) (hn : 1 ≤ n) (random : UInt32) :
    waited b n random ≤ nominal b n + nominal b n / b.jitterFraction.toNat ∧
      nominal b n ≤ waited b n random + nominal b n / b.jitterFraction.toNat := by
  obtain ⟨hless, hpart⟩ := hnone
  have hfraction := h.fraction
  have hstart := h.start
  have hmaximum := h.maximum
  have hmodulus : 0 < b.maxTimeout.toNat / b.jitterFraction.toNat := Nat.div_pos (by omega) hfraction
  have hjitter := Nat.mod_lt random.toNat hmodulus
  obtain ⟨m, rfl⟩ : ∃ m, n = m + 1 := ⟨n - 1, by omega⟩
  have hpower : 1 ≤ 2 ^ m := Nat.one_le_two_pow
  have hgrown : b.startTimeout.toNat ≤ b.startTimeout.toNat * 2 ^ m := Nat.le_mul_of_pos_right _ hpower
  have hdouble : b.startTimeout.toNat * 2 ^ (m + 1) = b.startTimeout.toNat * 2 ^ m * 2 := by
    rw [pow_succ, Nat.mul_assoc]
  have hreached : min (b.startTimeout.toNat * 2 ^ (m + 1)) b.maxTimeout.toNat = b.maxTimeout.toNat := by omega
  have hnominal : nominal b (m + 1) = b.startTimeout.toNat ∨ nominal b (m + 1) = b.maxTimeout.toNat := by
    rw [nominal, Nat.add_sub_cancel]
    omega
  rw [waited, hreached]
  rcases hnominal with hsame | hsame
  · rw [hsame]
    omega
  · rw [hsame]
    omega

theorem scheduled_of_noDoubling (h : Configured b) (hnone : NoDoubling b) (polls : ℕ → Poll) :
    Scheduled (backoffReset b) polls := by
  constructor
  · rfl
  · intro i hfires
    have hwaited := waited_near (b := backoffReset b) h.reset.configured hnone (firings_pos hfires) (polls i).random
    exact ⟨_, hwaited.1, hwaited.2, firesAfter h.reset rfl hfires⟩

/-- The start timeout doubled once. -/
def doubled (b : Backoff) : ℕ := min (b.startTimeout.toNat * 2) b.maxTimeout.toNat

/-- A random number that gives the longest jitter, and polls when the time is just not and just over. -/
def probe (b : Backoff) : ℕ → Poll
  | 0 => ⟨0, UInt32.ofNat (doubled b / b.jitterFraction.toNat - 1)⟩
  | 1 => ⟨UInt32.ofNat (doubled b + (doubled b / b.jitterFraction.toNat - 1)), 0⟩
  | _ => ⟨UInt32.ofNat (doubled b + (doubled b / b.jitterFraction.toNat - 1) + 1), 0⟩

/-- Two waiting times after which the same polls come, one before and one behind them, are one. -/
theorem wait_unique {wait wait' : ℕ} (h : NextAfter b polls i wait) (h' : NextAfter b polls i wait')
    (hfirst : (getElapsed (polls i).now (polls (i + 1)).now).toNat = wait)
    (hsecond : (getElapsed (polls i).now (polls (i + 2)).now).toNat = wait + 1) : wait' = wait := by
  have hnext : Awaited b polls i (i + 1) := ⟨Nat.lt_succ_self i, fun k hik hki => absurd hki (by omega)⟩
  have hearly : fires b polls (i + 1) = false := by
    rw [← Bool.not_eq_true, h (i + 1) hnext, hfirst]
    exact lt_irrefl wait
  have hlater : Awaited b polls i (i + 2) := by
    refine ⟨by omega, fun k hik hki => ?_⟩
    obtain rfl : k = i + 1 := by omega
    exact hearly
  have hfirst' := h' (i + 1) hnext
  have hsecond' := (h (i + 2) hlater).symm.trans (h' (i + 2) hlater)
  rw [hearly, hfirst] at hfirst'
  rw [hsecond] at hsecond'
  have hnot : ¬ wait' < wait := fun hless => absurd (hfirst'.mpr hless) (by decide)
  have hless : wait' < wait + 1 := hsecond'.mp (Nat.lt_succ_self wait)
  omega

/-- The longest jitter of the doubled start timeout, within 32 bits. -/
theorem doubled_jitter (h : Configured b) :
    0 < doubled b / b.jitterFraction.toNat ∧ doubled b + doubled b / b.jitterFraction.toNat < 2 ^ 32 := by
  have hstart := h.start
  have hmaximum := h.maximum
  have hsmall := h.small
  have hpart := Nat.div_le_self (doubled b) b.jitterFraction.toNat
  have hupper : doubled b ≤ b.maxTimeout.toNat := Nat.min_le_right _ _
  have hlower : b.startTimeout.toNat ≤ doubled b := by
    rw [doubled]
    omega
  constructor
  · exact Nat.div_pos (by omega) h.fraction
  · omega

/-- The first retransmission waits for twice the start timeout, with the longest jitter. -/
theorem probe_waited (h : Configured b) :
    waited b 1 (probe b 0).random + 1 = doubled b + doubled b / b.jitterFraction.toNat := by
  have hjitter := doubled_jitter h
  rw [waited, pow_one, ← doubled, probe, UInt32.toNat_ofNat', Nat.mod_eq_of_lt (by omega), Nat.mod_eq_of_lt (by omega)]
  omega

theorem probe_polls (h : Configured b) :
    (getElapsed (probe b 0).now (probe b 1).now).toNat = waited b 1 (probe b 0).random ∧
      (getElapsed (probe b 0).now (probe b 2).now).toNat = waited b 1 (probe b 0).random + 1 := by
  have hwaited := probe_waited h
  have hjitter := doubled_jitter h
  have hfirst : (probe b 0).now = 0 := rfl
  rw [getElapsed, getElapsed, hfirst, UInt32.sub_zero, UInt32.sub_zero]
  generalize waited b 1 (probe b 0).random = wait at hwaited ⊢
  constructor
  · rw [probe, UInt32.toNat_ofNat', Nat.mod_eq_of_lt (by omega)]
    omega
  · rw [probe, UInt32.toNat_ofNat', Nat.mod_eq_of_lt (by omega)]
    · omega
    · decide
    · decide

theorem noDoubling_of_scheduled (h : Configured b) (hscheduled : ∀ polls, Scheduled (backoffReset b) polls) :
    NoDoubling b := by
  have hprobe := hscheduled (probe b)
  obtain ⟨wait, hupper, -, hnext⟩ := hprobe.next 0 hprobe.first
  have hcount : firings (backoffReset b) (probe b) 1 = 1 := by
    rw [firings, Nat.count_succ, if_pos hprobe.first, Nat.count_zero]
  have hwaited := firesAfter h.reset rfl hprobe.first
  rw [hcount] at hwaited hupper
  have hpolls := probe_polls h
  have hwait : wait = waited b 1 (probe b 0).random := wait_unique hwaited hnext hpolls.1 hpolls.2
  have hmaximum := h.maximum
  have hfirst : nominal (backoffReset b) 1 = b.startTimeout.toNat := by
    rw [nominal, Nat.sub_self, pow_zero, Nat.mul_one]
    exact Nat.min_eq_left hmaximum
  have hlongest := probe_waited h
  have hsettings : (backoffReset b).jitterFraction = b.jitterFraction := rfl
  rw [hfirst, hsettings] at hupper
  have hfraction := h.fraction
  have hstart := h.start
  have hlower : b.startTimeout.toNat ≤ doubled b := by
    rw [doubled]
    omega
  have hgrown : b.startTimeout.toNat / b.jitterFraction.toNat ≤ doubled b / b.jitterFraction.toNat :=
    Nat.div_le_div_right hlower
  -- If the cap were out of reach, the start timeout and its divisor would be 1, and the jitter doubled as well.
  have hcapped : doubled b = b.maxTimeout.toNat := by
    by_contra hmore
    have hfree : doubled b = b.startTimeout.toNat * 2 := by
      rw [doubled] at hmore ⊢
      omega
    have hone : b.startTimeout.toNat = 1 := by omega
    have hpart : b.jitterFraction.toNat = 1 := by omega
    rw [hfree, hone, hpart] at hlongest
    rw [hone, hpart] at hupper
    omega
  rw [hcapped] at hlongest hgrown
  constructor
  · omega
  · by_contra hparts
    have hsame : b.maxTimeout.toNat = b.startTimeout.toNat := by omega
    exact hparts (by rw [hsame])

/-- A configuration keeps the schedule, whatever the random numbers and the polls, when nothing is doubled. -/
theorem schedule_iff (h : Configured b) : (∀ polls, Scheduled (backoffReset b) polls) ↔ NoDoubling b := by
  constructor
  · exact noDoubling_of_scheduled h
  · exact scheduled_of_noDoubling h

theorem schedule_iff_constant :
    (∀ polls, Scheduled (backoffReset (backoffInit ⟨0, 0, 0, 0, 0, 0, 0⟩ 500 500 4)) polls) ↔
      NoDoubling (backoffInit ⟨0, 0, 0, 0, 0, 0, 0⟩ 500 500 4) :=
  schedule_iff ⟨by decide, by decide, by decide, by decide⟩

/-- The TFTP client's settings: the first retransmission should come after 625 ms at the latest, and is not there
after 700. -/
theorem schedule_late : ∃ polls, ¬ Scheduled (backoffReset (backoffInit ⟨0, 0, 0, 0, 0, 0, 0⟩ 500 10000 4)) polls := by
  refine ⟨fun i => if i = 0 then ⟨0, 0⟩ else ⟨700, 0⟩, fun hscheduled => ?_⟩
  obtain ⟨wait, hupper, -, hnext⟩ := hscheduled.next 0 hscheduled.first
  have hcount : firings (backoffReset (backoffInit ⟨0, 0, 0, 0, 0, 0, 0⟩ 500 10000 4))
      (fun i => if i = 0 then ⟨0, 0⟩ else ⟨700, 0⟩) 1 = 1 := by
    rw [firings, Nat.count_succ, if_pos hscheduled.first, Nat.count_zero]
  rw [hcount] at hupper
  have hbound : wait ≤ 625 := hupper
  have hfires := (hnext 1 ⟨Nat.zero_lt_one, fun k hk hk' => absurd hk (by omega)⟩).mpr
    (lt_of_le_of_lt hbound (by decide : 625 < (getElapsed 0 700).toNat))
  exact absurd hfires (by decide)

end MiniIp.Guarantees.RetransmissionSchedule
