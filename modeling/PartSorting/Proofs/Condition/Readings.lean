import PartSorting.Proofs.Box.Intersection
import PartSorting.Proofs.Box.Volume
import PartSorting.Proofs.Condition.Opposite

/-! # A condition and its window read alike

On the scale a rating satisfies a condition exactly if it lies in the window, and exactly if it
lies in no piece of what the window leaves.  The window never leaves the scale, whatever the
threshold, and together with the rest it has all the ratings of the scale: for any interval, each
of them is either shared by the interval or in the complement. -/

set_option autoImplicit false

namespace PartSorting

open Finset

namespace Interval

theorem not_mem_complement_iff {interval scale : Interval} {value : Int}
    (onScale : value ∈ scale) :
    (∀ piece ∈ interval.complement scale, value ∉ piece) ↔ value ∈ interval := by
  have outside : (∃ piece ∈ interval.complement scale, value ∈ piece) ↔ value ∉ interval :=
    mem_complement.trans (and_iff_right onScale)
  constructor
  · intro nowhere
    by_contra notInside
    obtain ⟨piece, member, inPiece⟩ := outside.mpr notInside
    exact nowhere piece member inPiece
  · intro inside piece member inPiece
    exact outside.mp ⟨piece, member, inPiece⟩ inside

theorem size_shared_add_size_complement (interval : Interval) {scale : Interval}
    (proper : scale.Proper) :
    Intervals.size (interval.inter? scale).toList + Intervals.size (interval.complement scale) =
      scale.size := by
  have shared : Intervals.Within scale (interval.inter? scale).toList := by
    rw [← Intervals.clip_singleton]
    exact Intervals.within_clip_window [interval] scale
  rw [Intervals.size_eq_sum shared,
    Intervals.size_eq_sum (Intervals.within_complement interval scale),
    size_eq_sum proper (Int.le_refl _) (Int.le_refl _), ← sum_add_distrib]
  apply sum_congr rfl
  intro value member
  have onScale : value ∈ scale := mem_values.mp member
  rw [Intervals.count_toList_inter?, Intervals.count_complement]
  by_cases inside : value ∈ interval
  · simp [onScale, inside]
  · simp [onScale, inside]

end Interval

namespace Condition

theorem window_bounds (condition : Condition) (scale : Interval) :
    scale.low ≤ (condition.window scale).low ∧ (condition.window scale).high ≤ scale.high := by
  rw [window]
  cases condition.comparator with
  | lessThan => exact ⟨Int.le_refl _, Int.min_le_right _ _⟩
  | greaterThan => exact ⟨Int.le_max_right _ _, Int.le_refl _⟩

theorem length_complement_window_le (condition : Condition) (scale : Interval) :
    ((condition.window scale).complement scale).length ≤ 1 := by
  rw [complement_window]
  exact List.length_filter_le _ _

theorem size_shared_window (condition : Condition) (scale : Interval) :
    Intervals.size ((condition.window scale).inter? scale).toList =
      if (condition.window scale).Proper then (condition.window scale).size else 0 := by
  obtain ⟨low, high⟩ := condition.window_bounds scale
  by_cases proper : (condition.window scale).Proper
  · rw [if_pos proper, Interval.inter?_of_inside proper low high]
    exact Int.add_zero _
  · rw [if_neg proper, Interval.inter?_comm, Interval.inter?_of_improper proper]
    rfl

theorem size_window_add_size_complement (condition : Condition) (scale : Interval) :
    (if (condition.window scale).Proper then (condition.window scale).size else 0) +
        Intervals.size ((condition.window scale).complement scale) = scale.size ↔
      0 ≤ scale.size := by
  by_cases proper : scale.Proper
  · have positive := (Interval.proper_iff_size_pos scale).mp proper
    rw [← size_shared_window, Interval.size_shared_add_size_complement _ proper]
    exact iff_of_true rfl (Int.le_of_lt positive)
  · have improper : ¬(condition.window scale).Proper := by
      obtain ⟨low, high⟩ := condition.window_bounds scale
      exact fun ordered => proper (Int.le_trans low (Int.le_trans ordered high))
    have notPositive := mt (Interval.proper_iff_size_pos scale).mpr proper
    rw [if_neg improper, Interval.complement_of_improper_scale proper]
    simp only [Intervals.size]
    omega

/-- On every scale the test of a value, the window and the complement of the window agree; the
complement has at most one piece, the window stays within the scale, and the sizes of both add up
to that of the scale, unless an improper scale has a negative one. -/
theorem readings_agree (condition : Condition) (scale : Interval) :
    (∀ value ∈ scale,
      (value ∈ condition.window scale ↔ condition.holds value = true) ∧
      (condition.holds value = true ↔
        ∀ piece ∈ (condition.window scale).complement scale, value ∉ piece)) ∧
    ((condition.window scale).complement scale).length ≤ 1 ∧
    (scale.low ≤ (condition.window scale).low ∧
      (condition.window scale).high ≤ scale.high) ∧
    ((if (condition.window scale).Proper then (condition.window scale).size else 0) +
        Intervals.size ((condition.window scale).complement scale) = scale.size ↔
      0 ≤ scale.size) := by
  refine ⟨?_, condition.length_complement_window_le scale, condition.window_bounds scale,
    condition.size_window_add_size_complement scale⟩
  intro value onScale
  have inWindow : value ∈ condition.window scale ↔ condition.holds value = true :=
    mem_window_iff onScale
  exact ⟨inWindow, inWindow.symm.trans (Interval.not_mem_complement_iff onScale).symm⟩

theorem readings_agree_inside_and_below :
    let scale : Interval := ⟨1, 9⟩
    let inside : Condition := ⟨.x, .greaterThan, 3⟩
    let below : Condition := ⟨.x, .lessThan, -5⟩
    (inside.window scale = ⟨4, 9⟩ ∧ (inside.window scale).complement scale = [⟨1, 3⟩] ∧
      (3 : Int) ∈ scale ∧ (3 : Int) ∉ inside.window scale) ∧
    ¬(below.window scale).Proper ∧
      Intervals.size ((below.window scale).complement scale) = scale.size := by
  intro scale inside below
  have onScale : (3 : Int) ∈ scale := by decide
  have fails : ¬inside.holds 3 = true := by decide
  have improper : ¬(below.window scale).Proper := by decide
  have sized : 0 ≤ scale.size := by decide
  obtain ⟨agree, _⟩ := readings_agree inside scale
  obtain ⟨_, _, _, total⟩ := readings_agree below scale
  rw [if_neg improper, Int.zero_add] at total
  exact ⟨⟨rfl, by decide, onScale, mt (agree 3 onScale).1.mp fails⟩, improper, total.mpr sized⟩

end Condition

end PartSorting
