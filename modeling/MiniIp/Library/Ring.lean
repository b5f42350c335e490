import Mathlib.Data.ZMod.Defs
import Mathlib.Tactic.Common

/-!
# Rings with two cursors

A ring of `n` slots. The consumer stands at `index`, and the items `xs` lie in the
slots from there on; the producer stands behind the last of them. `P i x` says that
slot `i` carries `x`, and `Q i` that it is vacant. Neither cursor is stored
twice: the place of the producer follows from the number of items.
-/

set_option autoImplicit false

namespace MiniIp.Library.Ring

variable {n : ℕ} [NeZero n] {α : Type}

/-- The slot so many places behind `index`. -/
def slot (index : Fin n) (k : ℕ) : Fin n := index + Fin.ofNat n k

@[simp] theorem slot_zero (index : Fin n) : slot index 0 = index := by
  simp [slot]

theorem slot_succ (index : Fin n) (k : ℕ) : slot (index + 1) k = slot index (k + 1) := by
  apply Fin.ext
  simp [slot, Fin.val_add, Nat.add_assoc, Nat.add_comm 1 k]

theorem slot_next (index : Fin n) (k : ℕ) : slot index k + 1 = slot index (k + 1) := by
  apply Fin.ext
  simp [slot, Fin.val_add, Nat.add_assoc]

theorem slot_full (index : Fin n) : slot index n = index := by
  apply Fin.ext
  simp [slot]

theorem slot_inj (index : Fin n) {k k' : ℕ} (hk : k < n) (hk' : k' < n) (h : slot index k = slot index k') :
    k = k' := by
  have heq : Fin.ofNat n k = Fin.ofNat n k' := add_left_cancel h
  have hval := congrArg Fin.val heq
  simpa [Nat.mod_eq_of_lt hk, Nat.mod_eq_of_lt hk'] using hval

/-- Every slot is one of those from `index` on. -/
theorem exists_slot (index i : Fin n) : ∃ k < n, slot index k = i := by
  refine ⟨(i - index).val, (i - index).isLt, ?_⟩
  simp [slot]

/-- The items lie in the ring, one after the other. -/
structure Carries (P : Fin n → α → Prop) (Q : Fin n → Prop) (index : Fin n) (xs : List α) : Prop where
  fits : xs.length ≤ n
  items : ∀ k x, xs[k]? = some x → P (slot index k) x
  vacant : ∀ k, xs.length ≤ k → k < n → Q (slot index k)

namespace Carries

variable {P P' : Fin n → α → Prop} {Q Q' : Fin n → Prop} {index : Fin n} {x : α} {xs : List α}

theorem head (h : Carries P Q index (x :: xs)) : P index x := by
  have hitem := h.items 0 x rfl
  rwa [slot_zero] at hitem

/-- The consumer finds a vacant slot in an empty ring. -/
theorem empty (h : Carries P Q index []) : Q index := by
  have hvacant := h.vacant 0 (le_refl _) (Nat.pos_of_neZero n)
  rwa [slot_zero] at hvacant

/-- The producer finds a vacant slot, as long as there is one. -/
theorem producer (h : Carries P Q index xs) (hroom : xs.length < n) : Q (slot index xs.length) :=
  h.vacant _ (le_refl _) hroom

/-- In a full ring the producer has come round to the consumer. -/
theorem full (h : Carries P Q index xs) (hfull : n ≤ xs.length) : slot index xs.length = index := by
  rw [le_antisymm h.fits hfull, slot_full]

/-- The producer fills its slot, and leaves the others alone. -/
theorem push (h : Carries P Q index xs) (hroom : xs.length < n) (hitem : P' (slot index xs.length) x)
    (hitems : ∀ i y, i ≠ slot index xs.length → P i y → P' i y)
    (hvacant : ∀ i, i ≠ slot index xs.length → Q i → Q' i) : Carries P' Q' index (xs ++ [x]) where
  fits := by
    rw [List.length_append]
    exact hroom
  items k y hy := by
    have hlt : k < (xs ++ [x]).length := (List.getElem?_eq_some_iff.mp hy).1
    rw [List.length_append, List.length_singleton] at hlt
    by_cases hk : k < xs.length
    · rw [List.getElem?_append_left hk] at hy
      apply hitems _ _ _ (h.items k y hy)
      intro heq
      have hkk := slot_inj index (by omega) hroom heq
      omega
    · have hlast : k = xs.length := by omega
      subst hlast
      rw [List.getElem?_append_right (le_refl _), Nat.sub_self] at hy
      cases hy
      exact hitem
  vacant k hk hkn := by
    rw [List.length_append, List.length_singleton] at hk
    apply hvacant _ _ (h.vacant k (by omega) hkn)
    intro heq
    have hkk := slot_inj index hkn hroom heq
    omega

/-- The consumer empties its slot, and leaves the others alone. -/
theorem pop (h : Carries P Q index (x :: xs)) (hgone : Q' index)
    (hitems : ∀ i y, i ≠ index → P i y → P' i y) (hvacant : ∀ i, i ≠ index → Q i → Q' i) :
    Carries P' Q' (index + 1) xs where
  fits := by
    have hfits := h.fits
    rw [List.length_cons] at hfits
    omega
  items k y hy := by
    have hlt : k < xs.length := (List.getElem?_eq_some_iff.mp hy).1
    have hfits := h.fits
    rw [List.length_cons] at hfits
    rw [slot_succ]
    apply hitems _ _ _ (h.items (k + 1) y hy)
    intro heq
    rw [← slot_zero index] at heq
    have hkk := slot_inj (slot index 0) (by omega) (Nat.pos_of_neZero n) (heq.trans (slot_zero _).symm)
    omega
  vacant k hk hkn := by
    rw [slot_succ]
    by_cases hlast : k + 1 = n
    · rw [hlast, slot_full]
      exact hgone
    · apply hvacant _ _ (h.vacant (k + 1) (by simpa using hk) (by omega))
      intro heq
      have hkk := slot_inj index (by omega) (Nat.pos_of_neZero n) (heq.trans (slot_zero _).symm)
      omega

/-- A step that keeps what every slot carries. -/
theorem mono (h : Carries P Q index xs) (hitems : ∀ i y, P i y → P' i y) (hvacant : ∀ i, Q i → Q' i) :
    Carries P' Q' index xs :=
  ⟨h.fits, fun k y hy => hitems _ _ (h.items k y hy), fun k hk hkn => hvacant _ (h.vacant k hk hkn)⟩

/-- Every slot carries an item or is vacant. -/
theorem cases (h : Carries P Q index xs) (i : Fin n) : (∃ x ∈ xs, P i x) ∨ Q i := by
  obtain ⟨k, hk, rfl⟩ := exists_slot index i
  by_cases hlt : k < xs.length
  · exact .inl ⟨xs[k], List.getElem_mem hlt, h.items k _ (List.getElem?_eq_getElem hlt)⟩
  · exact .inr (h.vacant k (by omega) hk)

end Carries

end MiniIp.Library.Ring
