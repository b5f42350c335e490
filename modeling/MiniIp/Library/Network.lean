import Mathlib.Logic.Function.Basic
import MiniIp.Library.Runs

/-!
# Machines side by side

Several machines of one kind, each with a state of its own. At every step one of them performs an operation. The
condition on a step may look at all of them, so what they say to each other is a matter of that condition.
-/

set_option autoImplicit false

namespace MiniIp.Library.Runs

open Wp

variable {ε σ Op ι : Type} [DecidableEq ι] {exec : Op → EStateM ε σ Unit}
  {ok : (ι → σ) → ι × Op → Prop} {init net : ι → σ}

/-- One of the machines performs an operation. -/
def networkExec (exec : Op → EStateM ε σ Unit) (step : ι × Op) : EStateM ε (ι → σ) Unit :=
  onPart (fun net => net step.1) (fun s net => Function.update net step.1 s) (exec step.2)

/-- What every machine keeps relative to the states of all. What has been said of one of them stays true as another one
goes on. -/
theorem network_relative {M : (ι → σ) → ι → σ → Prop} {R : σ → σ → Prop} (h : Reaches (networkExec exec) ok init net)
    (start : ∀ i, M init i (init i))
    (grow : ∀ net i j t s, R (net i) t → M net j s → M (Function.update net i t) j s)
    (step : ∀ net i op, (∀ j, M net j (net j)) → ok net (i, op) →
      wp (exec op) (fun _ t => R (net i) t ∧ M net i t) (fun _ _ => True) (net i)) : ∀ i, M net i (net i) := by
  apply h.invariant (I := fun net => ∀ i, M net i (net i)) start
  rintro net ⟨i, op⟩ _ hall met
  rw [networkExec, wp_onPart]
  apply wp_next (step net i op hall met)
  rintro _ t ⟨hgrown, ht⟩ j
  by_cases hj : j = i
  · subst hj
    rw [Function.update_self]
    exact grow net j j t t hgrown ht
  · rw [Function.update_of_ne hj]
    exact grow net i j t (net j) hgrown (hall j)

/-- What every machine keeps, as long as all the others have kept it. -/
theorem network_invariant {I : ι → σ → Prop} (h : Reaches (networkExec exec) ok init net) (start : ∀ i, I i (init i))
    (step : ∀ net i op, (∀ j, I j (net j)) → ok net (i, op) →
      wp (exec op) (fun _ t => I i t) (fun _ _ => True) (net i)) : ∀ i, I i (net i) := by
  apply network_relative (M := fun _ => I) (R := fun _ _ => True) h start
  · intro _ _ _ _ _ _ hs
    exact hs
  · intro net i op hall met
    apply wp_next (step net i op hall met)
    intro _ t ht
    exact ⟨trivial, ht⟩

end MiniIp.Library.Runs
