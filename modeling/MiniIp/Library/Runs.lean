import MiniIp.Library.Wp

/-!
# Runs of a machine with named operations

`Reaches exec ok init s` says that `s` is reached from `init` by operations
that return, each meeting the condition `ok` in the state it starts from. An
invariant that holds initially and that every such operation keeps holds in
every state reached.
-/

set_option autoImplicit false

namespace MiniIp.Library.Runs

open Wp

variable {ε σ Op : Type}

inductive Reaches (exec : Op → EStateM ε σ Unit) (ok : σ → Op → Prop) (init : σ) : σ → Prop
  | start : Reaches exec ok init init
  | step {s t : σ} (op : Op) (before : Reaches exec ok init s) (met : ok s op)
      (returned : exec op s = .ok () t) : Reaches exec ok init t

variable {exec : Op → EStateM ε σ Unit} {ok ok' : σ → Op → Prop} {init s : σ}

/-- The induction over a run. The step may use that its state has been reached. -/
theorem Reaches.invariant {I : σ → Prop} (h : Reaches exec ok init s) (start : I init)
    (step : ∀ s op, Reaches exec ok init s → I s → ok s op →
      wp (exec op) (fun _ t => I t) (fun _ _ => True) s) : I s := by
  induction h with
  | start => exact start
  | step op before met returned ih => exact wp_ok (step _ op before ih met) returned

/-- Operations may be restricted further. -/
theorem Reaches.mono (h : Reaches exec ok init s) (weaker : ∀ s op, ok s op → ok' s op) :
    Reaches exec ok' init s := by
  induction h with
  | start => exact .start
  | step op _ met returned ih => exact .step op ih (weaker _ op met) returned

/-- One run after another. -/
theorem Reaches.trans {t : σ} (h : Reaches exec ok init s) (h' : Reaches exec ok s t) :
    Reaches exec ok init t := by
  induction h' with
  | start => exact h
  | step op _ met returned ih => exact .step op ih met returned

/-- A state reached, and one operation more. -/
theorem Reaches.next {op : Op} (h : Reaches exec ok init s) (met : ok s op) :
    wp (exec op) (fun _ t => Reaches exec ok init t) (fun _ _ => True) s := by
  unfold wp
  cases returned : exec op s with
  | ok _ t => exact h.step op met returned
  | error _ _ => trivial

/-- Compute a run: each operation passes the guard and returns, and the last state the check. -/
def runs (exec : Op → EStateM ε σ Unit) (guard : σ → Op → Bool) (check : σ → Bool) :
    List Op → σ → Bool
  | [], s => check s
  | op :: rest, s =>
    guard s op && match exec op s with
      | .ok _ t => runs exec guard check rest t
      | .error _ _ => false

/-- A computed run is a run, if the guard of its operations implies the condition. -/
theorem reaches_of_runs (ok : σ → Op → Prop) {guard : σ → Op → Bool} {check : σ → Bool} {ops : List Op}
    (h : Reaches exec ok init s) (met : ∀ op ∈ ops, ∀ s, guard s op = true → ok s op)
    (computed : runs exec guard check ops s = true) :
    ∃ t, Reaches exec ok init t ∧ check t = true := by
  induction ops generalizing s with
  | nil => exact ⟨s, h, computed⟩
  | cons op rest ih =>
    simp only [runs, Bool.and_eq_true] at computed
    obtain ⟨hguard, hrest⟩ := computed
    split at hrest
    next _ t ht =>
      exact ih (h.step op (met op List.mem_cons_self s hguard) ht)
        (fun o ho => met o (List.mem_cons_of_mem _ ho)) hrest
    next => cases hrest

end MiniIp.Library.Runs
