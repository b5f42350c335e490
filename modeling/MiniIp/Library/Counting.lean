import Mathlib.Algebra.BigOperators.Pi
import Mathlib.Algebra.BigOperators.Fin
import Mathlib.Algebra.Order.BigOperators.Group.Finset
import Mathlib.Algebra.Order.BigOperators.Group.List
import Mathlib.Data.Fintype.BigOperators

/-!
# Counting tokens in indexed containers

A finite family of containers is a function from an index type. These are the
facts needed to account for tokens that move between such families: what one
update does to a sum over the family, and how the number of occurrences of each
token adds up to the number of places.
-/

set_option autoImplicit false

namespace MiniIp.Library.Counting

open Finset

variable {ι β α : Type} [Fintype ι]

/-- Replacing one member changes the sum by the difference of that member. -/
theorem sum_update_add [DecidableEq ι] (f : ι → β) (g : β → ℕ) (i : ι) (v : β) :
    ∑ j, g (Function.update f i v j) + g (f i) = ∑ j, g (f j) + g v := by
  have hleft := Finset.add_sum_erase univ (fun j => g (Function.update f i v j)) (mem_univ i)
  have hright := Finset.add_sum_erase univ (fun j => g (f j)) (mem_univ i)
  have hrest : ∑ j ∈ univ.erase i, g (Function.update f i v j) = ∑ j ∈ univ.erase i, g (f j) := by
    refine Finset.sum_congr rfl fun j hj => ?_
    rw [Function.update_of_ne (ne_of_mem_erase hj)]
  simp only [Function.update_self] at hleft
  omega

theorem member_le_sum (g : ι → ℕ) (i : ι) : g i ≤ ∑ j, g j :=
  Finset.single_le_sum (fun _ _ => Nat.zero_le _) (mem_univ i)

/-- A family that adds up to one has one member that is one, and the others are zero. -/
theorem exists_single_of_sum_eq_one [DecidableEq ι] (f : ι → ℕ) (h : ∑ i, f i = 1) :
    ∃ i, f i = 1 ∧ ∀ j, j ≠ i → f j = 0 := by
  have hsome : ∃ i, f i ≠ 0 := by
    by_contra hnone
    push Not at hnone
    simp [hnone] at h
  obtain ⟨i, hi⟩ := hsome
  have hbound := member_le_sum f i
  refine ⟨i, by omega, fun j hj => ?_⟩
  have hrest := sum_update_add f id i 0
  have hmember := member_le_sum (Function.update f i 0) j
  rw [Function.update_of_ne hj] at hmember
  simp only [id_eq] at hrest
  omega

/-- The slots of a family that hold a given token. -/
def slots [DecidableEq α] (f : ι → Option α) (a : α) : ℕ :=
  ∑ i, if f i = some a then 1 else 0

theorem slots_update_add [DecidableEq ι] [DecidableEq α] (f : ι → Option α) (i : ι) (v : Option α) (a : α) :
    slots (Function.update f i v) a + (if f i = some a then 1 else 0) =
      slots f a + (if v = some a then 1 else 0) :=
  sum_update_add f (fun o => if o = some a then 1 else 0) i v

theorem sum_slots_le [Fintype α] [DecidableEq α] (f : ι → Option α) :
    ∑ a, slots f a ≤ Fintype.card ι := by
  unfold slots
  rw [Finset.sum_comm, ← Finset.card_univ, Finset.card_eq_sum_ones]
  refine Finset.sum_le_sum fun i _ => ?_
  cases h : f i with
  | none => simp
  | some b => simp

/-- Counting every token of a list counts its length. -/
theorem sum_count [Fintype α] [DecidableEq α] (l : List α) : ∑ a, l.count a = l.length := by
  induction l with
  | nil => simp
  | cons b l ih => simp [List.count_cons, Finset.sum_add_distrib, ih]

end MiniIp.Library.Counting
