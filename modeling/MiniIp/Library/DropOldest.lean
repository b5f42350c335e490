import Mathlib.Data.List.Basic
import Mathlib.Tactic.Common

/-!
# Bounded queues that drop their oldest item

What arrives is put at the end of the queue, and if there are then more than `m`
items the oldest one is dropped. The history of such a queue is a list of everything that has
arrived: the queue is its end, and what has been returned are some of the items before it.
-/

set_option autoImplicit false

namespace MiniIp.Library.DropOldest

variable {α : Type}

/-- Drop the oldest item of a queue that has become too long. -/
def keep (m : ℕ) (items : List α) : List α := if m < items.length then items.tail else items

/-- `taken` are the places, in the list of what has arrived, of the items that have been returned. All
places before `next` have left the queue; those that were not returned had `m` newer items behind them. -/
structure History (m : ℕ) (arrived returned queue : List α) (taken : List ℕ) (next : ℕ) : Prop where
  queue : queue = arrived.drop next
  passed : next ≤ arrived.length
  ordered : taken.Pairwise (· < ·)
  before : ∀ i ∈ taken, i < next
  returned : returned = taken.filterMap fun i => arrived[i]?
  dropped : ∀ i < next, i ∉ taken → i + m < arrived.length

/-- The queue has this history. -/
def Fifo (m : ℕ) (arrived returned queue : List α) : Prop :=
  ∃ taken next, History m arrived returned queue taken next

namespace Fifo

variable {m : ℕ} {arrived returned queue : List α} {x : α}

theorem empty : Fifo m ([] : List α) [] [] := ⟨[], 0, rfl, by simp, by simp, by simp, rfl, by simp⟩

theorem filterMap_append_arrived {taken : List ℕ} {next : ℕ} (hnext : next ≤ arrived.length)
    (hbefore : ∀ i ∈ taken, i < next) :
    (taken.filterMap fun i => (arrived ++ [x])[i]?) = taken.filterMap fun i => arrived[i]? := by
  apply List.filterMap_congr
  intro i hi
  have hlt := hbefore i hi
  rw [List.getElem?_append_left (by omega)]

/-- An item arrives, and the oldest one is dropped if there are too many. -/
theorem arrive (h : Fifo m arrived returned queue) (hshort : queue.length ≤ m) (x : α) :
    Fifo m (arrived ++ [x]) returned (keep m (queue ++ [x])) := by
  obtain ⟨taken, next, hhistory⟩ := h
  have hpassed := hhistory.passed
  have hqueue : queue ++ [x] = (arrived ++ [x]).drop next := by
    rw [hhistory.queue, List.drop_append_of_le_length hpassed]
  have hreturned : returned = taken.filterMap fun i => (arrived ++ [x])[i]? := by
    rw [filterMap_append_arrived hpassed hhistory.before]
    exact hhistory.returned
  have hlength : queue.length = arrived.length - next := by rw [hhistory.queue, List.length_drop]
  unfold keep
  split
  · next hfull =>
    rw [List.length_append, List.length_singleton] at hfull
    refine ⟨taken, next + 1, ?_, ?_, hhistory.ordered, ?_, hreturned, ?_⟩
    · rw [hqueue, List.tail_drop]
    · simp only [List.length_append, List.length_singleton]
      omega
    · intro i hi
      have hlt := hhistory.before i hi
      omega
    · intro i hi hnot
      simp only [List.length_append, List.length_singleton]
      by_cases hlast : i = next
      · omega
      · have hold := hhistory.dropped i (by omega) hnot
        omega
  · refine ⟨taken, next, hqueue, ?_, hhistory.ordered, hhistory.before, hreturned, ?_⟩
    · simp only [List.length_append]
      omega
    · intro i hi hnot
      have hold := hhistory.dropped i hi hnot
      simp only [List.length_append]
      omega

/-- The oldest item is returned. -/
theorem take (h : Fifo m arrived returned (x :: queue)) : Fifo m arrived (returned ++ [x]) queue := by
  obtain ⟨taken, next, hhistory⟩ := h
  have hitem : arrived[next]? = some x := by
    rw [← List.head?_drop, ← hhistory.queue]
    rfl
  have hlt : next < arrived.length := (List.getElem?_eq_some_iff.mp hitem).1
  refine ⟨taken ++ [next], next + 1, ?_, hlt, ?_, ?_, ?_, ?_⟩
  · rw [← List.tail_drop, ← hhistory.queue, List.tail_cons]
  · rw [List.pairwise_append]
    refine ⟨hhistory.ordered, by simp, fun i hi j hj => ?_⟩
    rw [List.mem_singleton.mp hj]
    exact hhistory.before i hi
  · intro i hi
    rcases List.mem_append.mp hi with hold | hnew
    · have hbefore := hhistory.before i hold
      omega
    · rw [List.mem_singleton.mp hnew]
      omega
  · simp [hhistory.returned, hitem]
  · intro i hi hnot
    rw [List.mem_append, List.mem_singleton, not_or] at hnot
    exact hhistory.dropped i (by omega) hnot.1

end Fifo

end MiniIp.Library.DropOldest
