import MiniIp.Library.Wp

/-!
# One computation from two states

A computation is run from two states that are `together`. In lockstep both runs do the same
and leave the states together, until they part. What is known of two runs that have parted
survives whatever comes `later` in each of them.
-/

set_option autoImplicit false

namespace MiniIp.Library.TwoRuns

variable {ε σ α β : Type}

/-- What two runs are compared by. -/
structure Comparison (σ : Type) where
  together : σ → σ → Prop
  parted : σ → σ → Prop
  later : σ → σ → Prop
  refl : ∀ s, later s s
  trans : ∀ {s t u}, later s t → later t u → later s u
  stable : ∀ {s s' t t'}, parted s s' → later s t → later s' t' → parted t t'

/-- The state in which a computation ends. -/
def final : EStateM.Result ε σ α → σ
  | .ok _ t => t
  | .error _ t => t

/-- The ends of two runs: the same, with a value in `V` where there is one, or the runs have parted. -/
inductive Meets (C : Comparison σ) (V : α → Prop) : EStateM.Result ε σ α → EStateM.Result ε σ α → Prop
  | returned {a : α} {t t' : σ} (value : V a) (together : C.together t t') : Meets C V (.ok a t) (.ok a t')
  | stopped {e : ε} {t t' : σ} (together : C.together t t') : Meets C V (.error e t) (.error e t')
  | parted {r r' : EStateM.Result ε σ α} (parted : C.parted (final r) (final r')) : Meets C V r r'

/-- Where `c` holds, `x` keeps two runs in lockstep. -/
structure Lockstep (C : Comparison σ) (c : Prop) (V : α → Prop) (x : EStateM ε σ α) : Prop where
  later : ∀ s, C.later s (final (x s))
  meets : c → ∀ {s s'}, C.together s s' → Meets C V (x s) (x s')

namespace Lockstep

variable {C : Comparison σ} {c c' : Prop} {V V' : α → Prop} {W : β → Prop} {x y : EStateM ε σ α}

theorem pure {a : α} (ha : c → V a) : Lockstep C c V (pure a : EStateM ε σ α) where
  later s := C.refl s
  meets hc _ _ h := .returned (ha hc) h

theorem throw (e : ε) : Lockstep C c V (throw e : EStateM ε σ α) where
  later s := C.refl s
  meets _ _ _ h := .stopped h

theorem modify {f : σ → σ} {V : Unit → Prop} (hlater : ∀ s, C.later s (f s)) (hV : V ())
    (htogether : c → ∀ {s s'}, C.together s s' → C.together (f s) (f s')) :
    Lockstep C c V (modify f : EStateM ε σ Unit) where
  later := hlater
  meets hc _ _ h := .returned hV (htogether hc h)

theorem mono (h : Lockstep C c V x) (hc : c' → c) (hV : ∀ a, V a → V' a) : Lockstep C c' V' x where
  later := h.later
  meets := by
    intro hc' s s' hs
    have hmeets := h.meets (hc hc') hs
    generalize x s = r, x s' = r' at hmeets
    cases hmeets with
    | returned value together => exact .returned (hV _ value) together
    | stopped together => exact .stopped together
    | parted parted => exact .parted parted

theorem later_bind {f : α → EStateM ε σ β} (hx : ∀ s, C.later s (final (x s)))
    (hf : ∀ a s, C.later s (final (f a s))) (s : σ) : C.later s (final ((x >>= f) s)) := by
  have hfirst := hx s
  simp only [bind, EStateM.bind]
  cases hxs : x s with
  | ok a t =>
    rw [hxs] at hfirst
    exact C.trans hfirst (hf a t)
  | error e t =>
    rw [hxs] at hfirst
    exact hfirst

/-- What comes after a computation may use what is known of its value. -/
theorem bindWith {f : α → EStateM ε σ β} (hx : Lockstep C c V x) (hf : ∀ a, Lockstep C (c ∧ V a) W (f a)) :
    Lockstep C c W (x >>= f) where
  later := later_bind hx.later fun a => (hf a).later
  meets := by
    intro hc s s' hs
    have hmeets := hx.meets hc hs
    have hrest : ∀ s, C.later (final (x s)) (final ((x >>= f) s)) := by
      intro s
      simp only [bind, EStateM.bind]
      cases hxs : x s with
      | ok a t => exact (hf a).later t
      | error e t => exact C.refl t
    have hleft := hrest s
    have hright := hrest s'
    simp only [bind, EStateM.bind] at hleft hright ⊢
    generalize x s = r, x s' = r' at hmeets hleft hright ⊢
    cases hmeets with
    | returned value together => exact (hf _).meets ⟨hc, value⟩ together
    | stopped together => exact .stopped together
    | parted parted => exact .parted (C.stable parted hleft hright)

theorem bind {f : α → EStateM ε σ β} (hx : Lockstep C c V x) (hf : ∀ a, Lockstep C c W (f a)) :
    Lockstep C c W (x >>= f) :=
  hx.bindWith fun a => (hf a).mono (fun h => h.1) fun _ hb => hb

/-- What is read from the state is the same in both runs, and what comes after it may use what is known
of the state. -/
theorem readWith {f : σ → EStateM ε σ β} {A : σ → Prop}
    (hsame : c → ∀ {s s'}, C.together s s' → f s' = f s ∧ A s)
    (hf : ∀ s, Lockstep C (c ∧ A s) W (f s)) : Lockstep C c W (get >>= f) where
  later s := (hf s).later s
  meets := by
    intro hc s s' hs
    obtain ⟨hf', hknown⟩ := hsame hc hs
    show Meets C W (f s s) (f s' s')
    rw [hf']
    exact (hf s).meets ⟨hc, hknown⟩ hs

theorem read {f : σ → EStateM ε σ β} (hsame : c → ∀ {s s'}, C.together s s' → f s' = f s)
    (hf : ∀ s, Lockstep C c W (f s)) : Lockstep C c W (get >>= f) :=
  readWith (A := fun _ => True) (fun hc _ _ hs => ⟨hsame hc hs, trivial⟩) fun s =>
    (hf s).mono (fun h => h.1) fun _ hb => hb

theorem ite {p : Prop} [Decidable p] (hx : p → Lockstep C c V x) (hy : ¬ p → Lockstep C c V y) :
    Lockstep C c V (if p then x else y) := by
  split
  · next h => exact hx h
  · next h => exact hy h

end Lockstep

end MiniIp.Library.TwoRuns
