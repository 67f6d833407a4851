import PartSorting.Proofs.Interval.Complement

/-! # The rest outside a window is a window

The ratings that do not satisfy a condition satisfy the opposite one, whose threshold is the next
integer.  On every scale the complement of a window is the window of the opposite condition, or
nothing, and never has two pieces.  So what a rule leaves of a box is the box with one attribute
kept to a window, just like what the rule takes. -/

set_option autoImplicit false

namespace PartSorting

namespace Condition

/-- The condition that the other ratings satisfy. -/
def opposite (condition : Condition) : Condition :=
  match condition.comparator with
  | .lessThan => ⟨condition.attr, .greaterThan, condition.threshold - 1⟩
  | .greaterThan => ⟨condition.attr, .lessThan, condition.threshold + 1⟩

@[simp] theorem attr_opposite (condition : Condition) :
    condition.opposite.attr = condition.attr := by
  simp only [opposite]
  split <;> rfl

/-- What the window of a condition leaves of the scale is the window of the opposite condition. -/
theorem complement_window (condition : Condition) (scale : Interval) :
    (condition.window scale).complement scale =
      [condition.opposite.window scale].filter fun piece => decide piece.Proper := by
  obtain ⟨attr, comparator, threshold⟩ := condition
  cases comparator with
  | lessThan =>
      have low : (window ⟨attr, .lessThan, threshold⟩ scale).low = scale.low := rfl
      rw [Interval.complement_of_low_eq low]
      apply Interval.filter_proper_congr
      simp only [window, opposite, Interval.Proper, Interval.mk.injEq, and_true]
      omega
  | greaterThan =>
      have high : (window ⟨attr, .greaterThan, threshold⟩ scale).high = scale.high := rfl
      rw [Interval.complement_of_high_eq high]
      apply Interval.filter_proper_congr
      simp only [window, opposite, Interval.Proper, Interval.mk.injEq, true_and]
      omega

end Condition

namespace Box

theorem drop_window (scale : Interval) (box : Box) (condition : Condition) :
    drop scale box condition.attr (condition.window scale) =
      box.keep condition.attr (condition.opposite.window scale) := by
  rw [drop, Condition.complement_window, Intervals.inter_window]
  rfl

end Box

end PartSorting
