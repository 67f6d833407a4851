import Mathlib.Data.List.Forall2
import PartSorting.Proofs.Interval.Count

/-! # Lists of intervals seen through a window

Clipping to two windows in turn is clipping to their common part, so many cuts in a row are one.
A clipped list has at most one piece of each interval, in the same order, and pieces of intervals
that follow one another without touching do so too. -/

set_option autoImplicit false

namespace PartSorting

namespace Interval

/-- The part that two windows have in common, improper if they have none. -/
def meet (left right : Interval) : Interval :=
  ⟨max left.low right.low, min left.high right.high⟩

theorem inter?_eq (left right : Interval) :
    left.inter? right = if (left.meet right).Proper then some (left.meet right) else none :=
  rfl

theorem meet_comm (left right : Interval) : left.meet right = right.meet left := by
  simp only [meet, Int.max_comm left.low, Int.min_comm left.high]

theorem meet_assoc (first second third : Interval) :
    (first.meet second).meet third = first.meet (second.meet third) := by
  simp only [meet, Int.max_assoc, Int.min_assoc]

theorem inter?_comm (left right : Interval) : left.inter? right = right.inter? left := by
  rw [inter?_eq, inter?_eq, meet_comm]

theorem inter?_bind_inter? (interval window other : Interval) :
    (interval.inter? window).bind (fun piece => piece.inter? other) =
      interval.inter? (window.meet other) := by
  rw [inter?_eq interval window]
  split
  · rw [Option.bind_some, inter?_eq, inter?_eq, meet_assoc]
  · rename_i apart
    have farther : ¬(interval.meet (window.meet other)).Proper := by
      rw [← meet_assoc]
      simp only [Proper, meet] at apart ⊢
      omega
    rw [Option.bind_none, inter?_eq, if_neg farther]

theorem inter?_of_inside {interval window : Interval} (proper : interval.Proper)
    (low : window.low ≤ interval.low) (high : interval.high ≤ window.high) :
    interval.inter? window = some interval := by
  have same : interval.meet window = interval := by
    simp only [meet, Int.max_eq_left low, Int.min_eq_left high]
  rw [inter?_eq, same, if_pos proper]

theorem inter?_of_improper {window : Interval} (improper : ¬window.Proper)
    (interval : Interval) : interval.inter? window = none := by
  have apart : ¬(interval.meet window).Proper := by
    simp only [Proper, meet] at improper ⊢
    omega
  rw [inter?_eq, if_neg apart]

end Interval

namespace Intervals

theorem clip_clip (intervals : List Interval) (window other : Interval) :
    clip (clip intervals window) other = clip intervals (window.meet other) := by
  simp only [clip, List.filterMap_filterMap, Interval.inter?_bind_inter?]

theorem clip_of_within {scale window : Interval} {intervals : List Interval}
    (within : Within scale intervals) (low : window.low ≤ scale.low)
    (high : scale.high ≤ window.high) : clip intervals window = intervals := by
  have kept : ∀ interval ∈ intervals, interval.inter? window = some interval := by
    intro interval member
    obtain ⟨proper, above, below⟩ := within interval member
    exact Interval.inter?_of_inside proper (Int.le_trans low above) (Int.le_trans below high)
  rw [clip, List.filterMap_congr kept, List.filterMap_some]

theorem clip_of_improper {window : Interval} (improper : ¬window.Proper)
    (intervals : List Interval) : clip intervals window = [] :=
  List.filterMap_eq_nil_iff.mpr fun interval _ => Interval.inter?_of_improper improper interval

theorem inter_singleton (intervals : List Interval) (window : Interval) :
    inter intervals [window] = clip intervals window := by
  induction intervals with
  | nil => rfl
  | cons interval intervals ih =>
      rw [inter_cons, ih, clip_cons, clip_cons, Interval.inter?_comm]
      exact congrArg (· ++ _) (List.append_nil _)

/-- A window that is left out when it is improper cuts as it does otherwise. -/
theorem inter_window (intervals : List Interval) (window : Interval) :
    inter intervals ([window].filter fun piece => decide piece.Proper) =
      clip intervals window := by
  by_cases proper : window.Proper
  · rw [List.filter_cons_of_pos (by simpa using proper), List.filter_nil, inter_singleton]
  · rw [List.filter_cons_of_neg (by simpa using proper), List.filter_nil, inter_nil,
      clip_of_improper proper]

def Ascending (intervals : List Interval) : Prop :=
  intervals.Pairwise fun left right => left.high < right.low

/-- A list that has at most one piece of each interval of another list, in the same order, and is
ascending if the other is. -/
structure Unfragmented (whole cut : List Interval) : Prop where
  length_le : cut.length ≤ whole.length
  in_order : List.SublistForall₂
    (fun piece interval => interval.low ≤ piece.low ∧ piece.high ≤ interval.high) cut whole
  ascending : Ascending whole → Ascending cut

theorem sublistForall₂_clip (intervals : List Interval) (window : Interval) :
    List.SublistForall₂
      (fun piece interval => interval.low ≤ piece.low ∧ piece.high ≤ interval.high)
      (clip intervals window) intervals := by
  induction intervals with
  | nil => exact .nil
  | cons interval intervals ih =>
      rw [clip_cons]
      cases found : interval.inter? window with
      | none => exact .cons_right ih
      | some piece =>
          obtain ⟨_, low, high, _⟩ := Interval.bounds_of_inter? found
          exact .cons ⟨low, high⟩ ih

theorem ascending_clip {intervals : List Interval} (ascending : Ascending intervals)
    (window : Interval) : Ascending (clip intervals window) := by
  apply ascending.filterMap
  intro left right before piece found later foundLater
  obtain ⟨_, _, high, _⟩ := Interval.bounds_of_inter? found
  obtain ⟨_, low, _⟩ := Interval.bounds_of_inter? foundLater
  omega

theorem unfragmented_clip (intervals : List Interval) (window : Interval) :
    Unfragmented intervals (clip intervals window) :=
  ⟨List.length_filterMap_le _ _, sublistForall₂_clip intervals window,
    fun ascending => ascending_clip ascending window⟩

end Intervals

end PartSorting
