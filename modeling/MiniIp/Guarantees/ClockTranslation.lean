import MiniIp.Invariant.Translation

/-!
# The stack works with relative times only

The README says of the 32-bit clock that it is enough "as long as we used relative times only".
So it is: move the clock and all times that the state stores of it by any amount, modulo 2^32, and every
sequence of calls, received frames and clock ticks goes on as before. In particular it makes no
difference when the clock wraps around.
-/

set_option autoImplicit false

namespace MiniIp.Guarantees.ClockTranslation

open MiniIp.Source MiniIp.Invariant MiniIp.Library.Wp MiniIp.Library.TwoRuns

theorem final_translated {delta : Time} {x y : Net Unit} (h : Follows (later delta) id x y) (s : Stack) :
    final (y (later delta s)) = later delta (final (x s)) := by
  have hend := wp_and (wp_self x s) (h s)
  unfold wp at hend
  split at hend
  · next a t hx =>
    rw [hx, hend.2]
    rfl
  · next e t hx =>
    rw [hx, hend.2]
    rfl

/-- The same calls at another time of the clock, from a state whose stored times are moved with the clock, return or stop
in the same way, observe the same, and leave the same state at that other time. Random numbers are the same in both. -/
theorem clock_translated (delta : Time) (ops : List Op) (s : Stack) :
    Follows (later delta) id (execAll ops) (execAll (ops.map (Op.later delta))) ∧
      (final (execAll (ops.map (Op.later delta)) (later delta s))).trace = (final (execAll ops s)).trace := by
  have hfollows : Follows (later delta) id (execAll ops) (execAll (ops.map (Op.later delta))) := execAll_translates ops
  refine ⟨hfollows, ?_⟩
  rw [final_translated hfollows]
  rfl

end MiniIp.Guarantees.ClockTranslation
