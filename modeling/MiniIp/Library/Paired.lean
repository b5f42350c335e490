import MiniIp.Library.Runs

/-!
# Pairs of runs

Two runs of one machine from the same state. Some operations are executed in both
runs, others in one of them only. What such a pair has in common is kept
by each of the three kinds of step.
-/

set_option autoImplicit false

namespace MiniIp.Library.Runs

open Wp

variable {ε σ Op : Type}

inductive Paired (exec : Op → EStateM ε σ Unit) (alone : σ → Op → Prop)
    (together : σ → σ → Op → Prop) (init : σ) : σ → σ → Prop
  | start : Paired exec alone together init init init
  | left {s t s' : σ} (op : Op) (before : Paired exec alone together init s t) (met : alone s op)
      (returned : exec op s = .ok () s') : Paired exec alone together init s' t
  | right {s t t' : σ} (op : Op) (before : Paired exec alone together init s t) (met : alone t op)
      (returned : exec op t = .ok () t') : Paired exec alone together init s t'
  | both {s t s' t' : σ} (op : Op) (before : Paired exec alone together init s t)
      (met : together s t op) (returned : exec op s = .ok () s') (returned' : exec op t = .ok () t') :
      Paired exec alone together init s' t'

variable {exec : Op → EStateM ε σ Unit} {alone : σ → Op → Prop} {together : σ → σ → Op → Prop}
  {init s t : σ}

/-- The induction over a pair of runs. -/
theorem Paired.relation {R : σ → σ → Prop} (h : Paired exec alone together init s t)
    (start : R init init)
    (left : ∀ s t op, R s t → alone s op → wp (exec op) (fun _ s' => R s' t) (fun _ _ => True) s)
    (right : ∀ s t op, R s t → alone t op → wp (exec op) (fun _ t' => R s t') (fun _ _ => True) t)
    (both : ∀ s t op, R s t → together s t op →
      wp (exec op) (fun _ s' => wp (exec op) (fun _ t' => R s' t') (fun _ _ => True) t)
        (fun _ _ => True) s) : R s t := by
  induction h with
  | start => exact start
  | left op _ met returned ih =>
    have hstep := wp_ok (left _ _ op ih met) returned
    exact hstep
  | right op _ met returned ih =>
    have hstep := wp_ok (right _ _ op ih met) returned
    exact hstep
  | both op _ met returned returned' ih =>
    have hstep := wp_ok (both _ _ op ih met) returned
    have hsteps := wp_ok hstep returned'
    exact hsteps

/-- Where an operation of a pair of runs is executed. -/
inductive Turn (Op : Type) where
  | left (op : Op)
  | right (op : Op)
  | both (op : Op)

/-- Compute a pair of runs: each operation passes its guard and returns, and the last pair of states
passes the check. -/
def pairRuns (exec : Op → EStateM ε σ Unit) (aloneGuard : σ → Op → Bool)
    (togetherGuard : σ → σ → Op → Bool) (check : σ → σ → Bool) : List (Turn Op) → σ → σ → Bool
  | [], s, t => check s t
  | .left op :: rest, s, t =>
    aloneGuard s op && match exec op s with
      | .ok _ s' => pairRuns exec aloneGuard togetherGuard check rest s' t
      | .error _ _ => false
  | .right op :: rest, s, t =>
    aloneGuard t op && match exec op t with
      | .ok _ t' => pairRuns exec aloneGuard togetherGuard check rest s t'
      | .error _ _ => false
  | .both op :: rest, s, t =>
    togetherGuard s t op && match exec op s, exec op t with
      | .ok _ s', .ok _ t' => pairRuns exec aloneGuard togetherGuard check rest s' t'
      | _, _ => false

/-- A computed pair of runs is one, if the guards imply the conditions. -/
theorem paired_of_pairRuns {aloneGuard : σ → Op → Bool} {togetherGuard : σ → σ → Op → Bool}
    {check : σ → σ → Bool} {turns : List (Turn Op)} (h : Paired exec alone together init s t)
    (halone : ∀ s op, aloneGuard s op = true → alone s op)
    (htogether : ∀ s t op, togetherGuard s t op = true → together s t op)
    (computed : pairRuns exec aloneGuard togetherGuard check turns s t = true) :
    ∃ s' t', Paired exec alone together init s' t' ∧ check s' t' = true := by
  induction turns generalizing s t with
  | nil => exact ⟨s, t, h, computed⟩
  | cons turn rest ih =>
    cases turn with
    | left op =>
      simp only [pairRuns, Bool.and_eq_true] at computed
      obtain ⟨hguard, hrest⟩ := computed
      split at hrest
      next _ s' hs' => exact ih (.left op h (halone s op hguard) hs') hrest
      next => cases hrest
    | right op =>
      simp only [pairRuns, Bool.and_eq_true] at computed
      obtain ⟨hguard, hrest⟩ := computed
      split at hrest
      next _ t' ht' => exact ih (.right op h (halone t op hguard) ht') hrest
      next => cases hrest
    | both op =>
      simp only [pairRuns, Bool.and_eq_true] at computed
      obtain ⟨hguard, hrest⟩ := computed
      split at hrest
      next _ s' _ t' hs' ht' => exact ih (.both op h (htogether s t op hguard) hs' ht') hrest
      next => cases hrest

end MiniIp.Library.Runs
