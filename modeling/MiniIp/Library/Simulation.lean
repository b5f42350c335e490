import MiniIp.Library.Wp

/-!
# Computations that follow another one

`Follows h v x y` says that `y` does from `h s` what `x` does from `s`: it returns the image under
`v` of the value that `x` returns, or it stops for the same reason, and it ends in the image
of the state in which `x` ends. With a bijection for `h` this is a symmetry of the machine.
-/

set_option autoImplicit false

namespace MiniIp.Library.Wp

variable {ε σ τ α α' β β' : Type}

/-- `y` does from `h s` what `x` does from `s`, and returns the value that corresponds. -/
def Follows (h : σ → τ) (v : α → α') (x : EStateM ε σ α) (y : EStateM ε τ α') : Prop :=
  ∀ s, wp x (fun a t => y (h s) = .ok (v a) (h t)) (fun e t => y (h s) = .error e (h t)) s

namespace Follows

variable {h : σ → τ} {v : α → α'} {w : β → β'} {x x' : EStateM ε σ α} {y y' : EStateM ε τ α'}

theorem pure (a : α) : Follows h v (pure a : EStateM ε σ α) (pure (v a)) := fun _ => rfl

theorem throw (e : ε) : Follows h v (throw e : EStateM ε σ α) (throw e) := fun _ => rfl

theorem modify {f : σ → σ} {g : τ → τ} (hcommutes : ∀ s, g (h s) = h (f s)) :
    Follows h id (modify f : EStateM ε σ Unit) (modify g) := by
  intro s
  rw [wp_modify]
  show EStateM.Result.ok () (g (h s)) = .ok () (h (f s))
  rw [hcommutes s]

theorem bind {f : α → EStateM ε σ β} {g : α' → EStateM ε τ β'} (hxy : Follows h v x y)
    (hfg : ∀ a, Follows h w (f a) (g (v a))) : Follows h w (x >>= f) (y >>= g) := by
  intro s
  rw [wp_bind]
  apply wp_mono (hxy s)
  · intro a t hyt
    have hrest : (y >>= g) (h s) = g (v a) (h t) := by
      simp only [Bind.bind, EStateM.bind, hyt]
    rw [hrest]
    exact hfg a t
  · intro e t hyt
    simp only [Bind.bind, EStateM.bind, hyt]

/-- What is read from the state may differ, as long as what is done with it does not. -/
theorem read {f : σ → EStateM ε σ β} {g : τ → EStateM ε τ β'} (hfg : ∀ s, Follows h w (f s) (g (h s))) :
    Follows h w (get >>= f) (get >>= g) := fun s => hfg s s

theorem ite {p : Prop} [Decidable p] (hxy : Follows h v x y) (hxy' : Follows h v x' y') :
    Follows h v (if p then x else x') (if p then y else y') := by
  split
  · exact hxy
  · exact hxy'

end Follows

end MiniIp.Library.Wp
