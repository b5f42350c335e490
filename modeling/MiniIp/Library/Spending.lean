import Mathlib.Data.Nat.Notation
import MiniIp.Library.Within

/-!
# What a computation spends

`Spends R n x` says that where `x` returns, the states before and after are related by `R n`, with a number that
bounds what has been spent on the way. The bounds of two computations that run one after the other add up.
-/

set_option autoImplicit false

namespace MiniIp.Library.Wp

variable {ε σ α β : Type}

/-- A relation with a budget: nothing costs nothing, two steps cost what both cost, and a larger budget will do. -/
structure Graded (R : ℕ → σ → σ → Prop) : Prop where
  refl : ∀ s, R 0 s s
  trans : ∀ {m n s t u}, R m s t → R n t u → R (m + n) s u
  mono : ∀ {m n s t}, m ≤ n → R m s t → R n s t

/-- A returning run of `x` stays within the budget. -/
def Spends (R : ℕ → σ → σ → Prop) (n : ℕ) (x : EStateM ε σ α) : Prop := Leads (R n) x

namespace Spends

variable {R : ℕ → σ → σ → Prop} {m n : ℕ} {x y : EStateM ε σ α}

theorem throw (e : ε) : Spends R n (throw e : EStateM ε σ α) := Leads.throw e

theorem modify {f : σ → σ} (h : ∀ s, R n s (f s)) : Spends R n (modify f : EStateM ε σ Unit) := h

theorem ite {c : Prop} [Decidable c] (hx : Spends R n x) (hy : Spends R n y) : Spends R n (if c then x else y) :=
  Leads.ite hx hy

variable (hR : Graded R)

include hR

theorem pure (a : α) : Spends R n (pure a : EStateM ε σ α) := fun s => hR.mono (Nat.zero_le n) (hR.refl s)

theorem get : Spends R n (get : EStateM ε σ σ) := fun s => hR.mono (Nat.zero_le n) (hR.refl s)

theorem mono (h : Spends R m x) (hmn : m ≤ n) : Spends R n x := by
  intro s
  apply wp_next (h s)
  intro _ t ht
  exact hR.mono hmn ht

theorem bind {f : α → EStateM ε σ β} (hx : Spends R m x) (hf : ∀ a, Spends R n (f a)) :
    Spends R (m + n) (x >>= f) := by
  intro s
  rw [wp_bind]
  apply wp_next (hx s)
  intro a t hst
  apply wp_next (hf a t)
  intro _ u htu
  exact hR.trans hst htu

/-- Something that costs nothing comes first. -/
theorem before {f : α → EStateM ε σ β} (hx : Spends R 0 x) (hf : ∀ a, Spends R n (f a)) : Spends R n (x >>= f) := by
  have hboth := bind hR hx hf
  rwa [Nat.zero_add] at hboth

/-- Something that costs nothing comes behind. -/
theorem andThen {f : α → EStateM ε σ β} (hx : Spends R n x) (hf : ∀ a, Spends R 0 (f a)) : Spends R n (x >>= f) := bind hR hx hf

end Spends

end MiniIp.Library.Wp
