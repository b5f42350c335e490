import Mathlib.Order.Defs.Unbundled
import MiniIp.Library.Wp

/-!
# Computations that stay within a relation

`Within R H x` says that `x` leaves a state related by `R` to the one it started
from, whichever way it ends, and that it stops only for the reasons `H` gives
there. Frame conditions are of this form. For a reflexive and transitive `R` it
is enough to look at the steps of `x` one by one. `Leads R x` says so of the
returning runs only.
-/

set_option autoImplicit false

namespace MiniIp.Library.Wp

variable {ε σ α β : Type}

def Within (R : σ → σ → Prop) (H : ε → σ → Prop) (x : EStateM ε σ α) : Prop :=
  ∀ s, wp x (fun _ t => R s t) (fun e t => R s t ∧ H e t) s

namespace Within

variable {R R' : σ → σ → Prop} {H H' : ε → σ → Prop}

/-- A specification of a computation, with what it keeps. -/
theorem run {x : EStateM ε σ α} (h : Within R H x) {s : σ} {Q : α → σ → Prop} {E : ε → σ → Prop}
    (hx : wp x Q E s) : wp x (fun a t => Q a t ∧ R s t) E s :=
  wp_mono (wp_and hx (h s)) (fun _ _ ht => ht) fun _ _ ht => ht.1

theorem mono {x : EStateM ε σ α} (h : Within R H x) (hR : ∀ s t, R s t → R' s t)
    (hH : ∀ e t, H e t → H' e t) : Within R' H' x := by
  intro s
  apply wp_mono (h s)
  · intro _ t ht
    exact hR s t ht
  · intro e t ht
    exact ⟨hR s t ht.1, hH e t ht.2⟩

theorem modify {f : σ → σ} (h : ∀ s, R s (f s)) : Within R H (modify f) := h

section Reflexive

variable [Std.Refl R]

theorem pure (a : α) : Within R H (pure a) := fun s => Std.Refl.refl (r := R) s

theorem get : Within R H (get : EStateM ε σ σ) := fun s => Std.Refl.refl (r := R) s

theorem throw {e : ε} (h : ∀ s, H e s) : Within R H (throw e : EStateM ε σ α) :=
  fun s => ⟨Std.Refl.refl (r := R) s, h s⟩

end Reflexive

theorem bind [IsTrans σ R] {x : EStateM ε σ α} {f : α → EStateM ε σ β} (hx : Within R H x)
    (hf : ∀ a, Within R H (f a)) : Within R H (x >>= f) := by
  intro s
  rw [wp_bind]
  apply wp_next (hx s)
  intro a t hst
  apply wp_mono (hf a t)
  · intro _ u htu
    exact IsTrans.trans s t u hst htu
  · intro _ u htu
    exact ⟨IsTrans.trans s t u hst htu.1, htu.2⟩

theorem ite {c : Prop} [Decidable c] {x y : EStateM ε σ α} (hx : Within R H x)
    (hy : Within R H y) : Within R H (if c then x else y) := by
  split
  · exact hx
  · exact hy

end Within

def Leads (R : σ → σ → Prop) (x : EStateM ε σ α) : Prop :=
  ∀ s, wp x (fun _ t => R s t) (fun _ _ => True) s

namespace Leads

variable {R : σ → σ → Prop} {H : ε → σ → Prop}

theorem throw (e : ε) : Leads R (throw e : EStateM ε σ α) := fun _ => trivial

theorem bind [IsTrans σ R] {x : EStateM ε σ α} {f : α → EStateM ε σ β} (hx : Leads R x) (hf : ∀ a, Leads R (f a)) :
    Leads R (x >>= f) := by
  intro s
  rw [wp_bind]
  apply wp_next (hx s)
  intro a t hst
  apply wp_next (hf a t)
  intro _ u htu
  exact IsTrans.trans s t u hst htu

theorem ite {c : Prop} [Decidable c] {x y : EStateM ε σ α} (hx : Leads R x) (hy : Leads R y) :
    Leads R (if c then x else y) := by
  split
  · exact hx
  · exact hy

end Leads

end MiniIp.Library.Wp
