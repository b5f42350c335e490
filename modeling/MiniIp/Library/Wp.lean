import Mathlib.Logic.Function.Basic

/-!
# Weakest preconditions for stateful computations that may stop

A computation `EStateM ε σ α` returns a value in a new state, or stops for a
reason `ε` and leaves the state it had reached. `wp x Q E s` holds when running
`x` from `s` either returns with `Q` or stops with `E`. Taking `E` to be `True`
gives partial correctness, taking it to be `False` gives total correctness.

`Preserves` is the derived notion for invariants: from a state in the invariant the
computation ends in it, whichever way it ends.
-/

set_option autoImplicit false

namespace MiniIp.Library.Wp

variable {ε σ α β : Type}

/-- Every way `x` can end from `s` is covered by the two postconditions. -/
def wp (x : EStateM ε σ α) (Q : α → σ → Prop) (E : ε → σ → Prop) (s : σ) : Prop :=
  match x s with
  | .ok a t => Q a t
  | .error e t => E e t

section Rules

variable {Q Q' : α → σ → Prop} {R : β → σ → Prop} {E E' : ε → σ → Prop} {s : σ}

@[simp] theorem wp_pure (a : α) : wp (pure a) Q E s ↔ Q a s := Iff.rfl

@[simp] theorem wp_throw (e : ε) : wp (throw e : EStateM ε σ α) Q E s ↔ E e s := Iff.rfl

@[simp] theorem wp_get {Q : σ → σ → Prop} : wp get Q E s ↔ Q s s := Iff.rfl

@[simp] theorem wp_modify {Q : Unit → σ → Prop} (f : σ → σ) :
    wp (modify f) Q E s ↔ Q () (f s) := Iff.rfl

@[simp] theorem wp_bind (x : EStateM ε σ α) (f : α → EStateM ε σ β) :
    wp (x >>= f) R E s ↔ wp x (fun a t => wp (f a) R E t) E s := by
  simp only [wp, bind, EStateM.bind]
  cases x s <;> rfl

@[simp] theorem wp_map (x : EStateM ε σ α) (f : α → β) :
    wp (f <$> x) R E s ↔ wp x (fun a t => R (f a) t) E s := by
  simp only [wp, Functor.map, EStateM.map]
  cases x s <;> rfl

@[simp] theorem wp_ite (c : Prop) [Decidable c] (x y : EStateM ε σ α) :
    wp (if c then x else y) Q E s ↔ if c then wp x Q E s else wp y Q E s := by
  by_cases h : c <;> simp only [h, ↓reduceIte]

/-- The rule of consequence: both postconditions may be weakened. -/
theorem wp_mono {x : EStateM ε σ α} (h : wp x Q E s) (hQ : ∀ a t, Q a t → Q' a t)
    (hE : ∀ e t, E e t → E' e t) : wp x Q' E' s := by
  unfold wp at *
  split at h
  next a t _ => exact hQ a t h
  next e t _ => exact hE e t h

/-- Consequence on the returning side only, the form in which callers chain specifications. -/
theorem wp_next {x : EStateM ε σ α} (h : wp x Q E s) (hQ : ∀ a t, Q a t → Q' a t) :
    wp x Q' E s :=
  wp_mono h hQ fun _ _ he => he

/-- Consequence where only the returning runs matter. -/
theorem wp_partial {x : EStateM ε σ α} (h : wp x Q E s) (hQ : ∀ a t, Q a t → Q' a t) :
    wp x Q' (fun _ _ => True) s :=
  wp_mono h hQ fun _ _ _ => trivial

theorem wp_true (x : EStateM ε σ α) : wp x (fun _ _ => True) (fun _ _ => True) s := by
  unfold wp
  split
  · trivial
  · trivial

/-- The strongest specification says how the computation ends. -/
theorem wp_self (x : EStateM ε σ α) (s : σ) :
    wp x (fun a t => x s = .ok a t) (fun e t => x s = .error e t) s := by
  unfold wp
  cases x s with
  | ok a t => rfl
  | error e t => rfl

/-- The rule of conjunction: separately proved specifications hold of the same run. -/
theorem wp_and {x : EStateM ε σ α} (h : wp x Q E s) (h' : wp x Q' E' s) :
    wp x (fun a t => Q a t ∧ Q' a t) (fun e t => E e t ∧ E' e t) s := by
  unfold wp at *
  split at h <;> simp_all

/-- A computation returns or stops. -/
theorem wp_absurd {x : EStateM ε σ α} (h : wp x (fun _ _ => False) (fun _ _ => False) s) : False := by
  unfold wp at h
  split at h
  · exact h
  · exact h

theorem wp_ok {x : EStateM ε σ α} {a : α} {t : σ} (h : wp x Q E s) (hx : x s = .ok a t) : Q a t := by
  simpa only [wp, hx] using h

theorem wp_error {x : EStateM ε σ α} {e : ε} {t : σ} (h : wp x Q E s) (hx : x s = .error e t) :
    E e t := by
  simpa only [wp, hx] using h

/-- A run that cannot stop returns. -/
theorem returns_of_wp {x : EStateM ε σ α} (h : wp x Q (fun _ _ => False) s) :
    ∃ a t, x s = .ok a t ∧ Q a t := by
  unfold wp at h
  split at h
  next a t hx => exact ⟨a, t, hx, h⟩
  next => exact h.elim

/-- A run that cannot return stops. -/
theorem stops_of_wp {x : EStateM ε σ α} (h : wp x (fun _ _ => False) E s) :
    ∃ e t, x s = .error e t ∧ E e t := by
  unfold wp at h
  split at h
  next => exact h.elim
  next e t hx => exact ⟨e, t, hx, h⟩

/-- Compute whether `x` returns and the state it leaves passes the check. -/
def returnsWith (check : σ → Bool) (x : EStateM ε σ α) (s : σ) : Bool :=
  match x s with
  | .ok _ t => check t
  | .error _ _ => false

theorem wp_of_returnsWith {check : σ → Bool} {x : EStateM ε σ α} (h : returnsWith check x s = true) :
    wp x (fun _ t => check t = true) (fun _ _ => False) s := by
  unfold returnsWith at h
  unfold wp
  cases hx : x s with
  | ok a t =>
    rw [hx] at h
    exact h
  | error e t =>
    rw [hx] at h
    cases h

/-- Computations that meet the same specifications end in the same way. -/
theorem eq_of_wp {x y : EStateM ε σ α} {t : σ}
    (h : ∀ (Q : α → σ → Prop) (E : ε → σ → Prop), wp x Q E s → wp y Q E t) : x s = y t := by
  cases hx : x s with
  | ok a u =>
    have hy := h (fun b v => b = a ∧ v = u) (fun _ _ => False) (by simp [wp, hx])
    obtain ⟨b, v, hyt, rfl, rfl⟩ := returns_of_wp hy
    exact hyt.symm
  | error e u =>
    have hy := h (fun _ _ => False) (fun d v => d = e ∧ v = u) (by simp [wp, hx])
    obtain ⟨d, v, hyt, rfl, rfl⟩ := stops_of_wp hy
    exact hyt.symm

end Rules

section Part

variable {τ : Type}

/-- Run `x` on the part of the state that `get` reads and `set` replaces. -/
def onPart (get : σ → τ) (set : τ → σ → σ) (x : EStateM ε τ α) : EStateM ε σ α := fun s =>
  match x (get s) with
  | .ok a t => .ok a (set t s)
  | .error e t => .error e (set t s)

@[simp] theorem wp_onPart {get : σ → τ} {set : τ → σ → σ} {x : EStateM ε τ α} {Q : α → σ → Prop}
    {E : ε → σ → Prop} {s : σ} :
    wp (onPart get set x) Q E s ↔ wp x (fun a t => Q a (set t s)) (fun e t => E e (set t s)) (get s) := by
  unfold wp onPart
  cases x (get s) <;> rfl

end Part

/-- `x` keeps the invariant `I` on every outcome and stops only for the reasons in `H`. -/
def Preserves (I : σ → Prop) (H : ε → Prop) (x : EStateM ε σ α) : Prop :=
  ∀ s, I s → wp x (fun _ t => I t) (fun e t => H e ∧ I t) s

namespace Preserves

variable {I : σ → Prop} {H : ε → Prop}

theorem pure (a : α) : Preserves I H (pure a) := fun _ hs => hs

theorem bind {x : EStateM ε σ α} {f : α → EStateM ε σ β} (hx : Preserves I H x)
    (hf : ∀ a, Preserves I H (f a)) : Preserves I H (x >>= f) := by
  intro s hs
  rw [wp_bind]
  exact wp_next (hx s hs) fun a t ht => hf a t ht

theorem get : Preserves I H (get : EStateM ε σ σ) := fun _ hs => hs

theorem modify {f : σ → σ} (hf : ∀ s, I s → I (f s)) : Preserves I H (modify f) := hf

theorem throw {e : ε} (he : H e) : Preserves I H (throw e : EStateM ε σ α) := fun _ hs => ⟨he, hs⟩

theorem ite {c : Prop} [Decidable c] {x y : EStateM ε σ α} (hx : c → Preserves I H x)
    (hy : ¬ c → Preserves I H y) : Preserves I H (if c then x else y) := by
  intro s hs
  rw [wp_ite]
  split
  · next h => exact hx h s hs
  · next h => exact hy h s hs

end Preserves

end MiniIp.Library.Wp
