import PartSorting.Proofs.Box.Disjoint
import PartSorting.Proofs.Interval.Window

/-! # The complement of an interval, and its complement

The complement is the part of the scale below the interval and the part above it, as far as they
are proper.  To take such a part away from a list of intervals is to clip the list to a window, so
what is left of the scale without the whole complement is the interval again, seen on the scale. -/

set_option autoImplicit false

namespace PartSorting

namespace Interval

theorem filter_proper_congr {left right : Interval}
    (same : left.Proper ∨ right.Proper → left = right) :
    ([left].filter fun piece => decide piece.Proper) =
      [right].filter fun piece => decide piece.Proper := by
  by_cases proper : left.Proper ∨ right.Proper
  · rw [same proper]
  · obtain ⟨leftImproper, rightImproper⟩ := not_or.mp proper
    rw [List.filter_cons_of_neg (by simpa using leftImproper),
      List.filter_cons_of_neg (by simpa using rightImproper)]

theorem complement_of_low_eq {interval scale : Interval} (low : interval.low = scale.low) :
    interval.complement scale =
      [⟨max (interval.high + 1) scale.low, scale.high⟩].filter
        fun piece => decide piece.Proper := by
  by_cases proper : interval.Proper
  · have nothing : ¬(⟨scale.low, min (interval.low - 1) scale.high⟩ : Interval).Proper := by
      simp only [Proper]
      omega
    rw [complement, if_pos proper, List.filter_cons_of_neg (by simpa using nothing)]
  · have whole : max (interval.high + 1) scale.low = scale.low := by
      simp only [Proper] at proper
      omega
    rw [complement, if_neg proper, whole]

theorem complement_of_high_eq {interval scale : Interval} (high : interval.high = scale.high) :
    interval.complement scale =
      [⟨scale.low, min (interval.low - 1) scale.high⟩].filter
        fun piece => decide piece.Proper := by
  by_cases proper : interval.Proper
  · have nothing : ¬(⟨max (interval.high + 1) scale.low, scale.high⟩ : Interval).Proper := by
      simp only [Proper]
      omega
    rw [complement, if_pos proper, List.filter_cons,
      List.filter_cons_of_neg (by simpa using nothing), List.filter_cons]
  · have whole : min (interval.low - 1) scale.high = scale.high := by
      simp only [Proper] at proper
      omega
    rw [complement, if_neg proper, whole]

theorem complement_of_improper {interval : Interval} (improper : ¬interval.Proper)
    (scale : Interval) :
    interval.complement scale = [scale].filter fun piece => decide piece.Proper := by
  rw [complement, if_neg improper]

theorem complement_of_improper_scale {scale : Interval} (improper : ¬scale.Proper)
    (interval : Interval) : interval.complement scale = [] := by
  apply List.eq_nil_iff_forall_not_mem.mpr
  intro piece member
  have proper : piece.Proper := by
    rw [complement] at member
    split at member <;> exact of_decide_eq_true (List.mem_filter.mp member).2
  obtain ⟨value, inside⟩ := (proper_iff_exists_mem piece).mp proper
  exact improper ((proper_iff_exists_mem scale).mpr
    ⟨value, (mem_complement.mp ⟨piece, member, inside⟩).1⟩)

theorem toList_inter? (left right : Interval) :
    (left.inter? right).toList =
      [left.meet right].filter fun piece => decide piece.Proper := by
  rw [inter?_eq]
  split
  · rename_i proper
    rw [List.filter_cons_of_pos (by simpa using proper)]
    rfl
  · rename_i improper
    rw [List.filter_cons_of_neg (by simpa using improper)]
    rfl

end Interval

namespace Intervals

variable {scale : Interval}

theorem within_complement (interval scale : Interval) :
    Within scale (interval.complement scale) := by
  intro piece member
  rw [Interval.complement] at member
  split at member
  · obtain ⟨listed, proper⟩ := List.mem_filter.mp member
    refine ⟨of_decide_eq_true proper, ?_⟩
    simp only [List.mem_cons, List.not_mem_nil, or_false] at listed
    rcases listed with rfl | rfl
    · exact ⟨Int.le_refl _, Int.min_le_right _ _⟩
    · exact ⟨Int.le_max_right _ _, Int.le_refl _⟩
  · obtain ⟨listed, proper⟩ := List.mem_filter.mp member
    obtain rfl := List.mem_singleton.mp listed
    exact ⟨of_decide_eq_true proper, Int.le_refl _, Int.le_refl _⟩

theorem length_complement_le (interval scale : Interval) :
    (interval.complement scale).length ≤ 2 := by
  rw [Interval.complement]
  split
  · exact List.length_filter_le _ _
  · exact Nat.le_trans (List.length_filter_le _ _) (Nat.le_succ 1)

theorem ascending_complement (interval scale : Interval) :
    Ascending (interval.complement scale) := by
  rw [Interval.complement]
  split
  · rename_i proper
    apply List.Pairwise.filter
    apply List.pairwise_pair.mpr
    simp only [Interval.Proper] at proper ⊢
    omega
  · exact (List.pairwise_singleton _ _).filter _

/-- What the listed intervals leave of the scale, taken away one after the other. -/
def remainder (scale : Interval) (pieces : List Interval) : List Interval :=
  pieces.foldl (fun rest piece => inter rest (piece.complement scale)) [scale]

/-- To take away an improper interval changes nothing within the scale. -/
theorem inter_complement_of_improper {rest : List Interval} (within : Within scale rest)
    {piece : Interval} (improper : ¬piece.Proper) :
    inter rest (piece.complement scale) = rest := by
  rw [Interval.complement_of_improper improper, inter_window]
  exact clip_of_within within (Int.le_refl _) (Int.le_refl _)

/-- Only the proper ones of the intervals that are taken away count. -/
theorem foldl_filter_proper (pieces : List Interval) {rest : List Interval}
    (within : Within scale rest) :
    (pieces.filter fun piece => decide piece.Proper).foldl
        (fun rest piece => inter rest (piece.complement scale)) rest =
      pieces.foldl (fun rest piece => inter rest (piece.complement scale)) rest := by
  induction pieces generalizing rest with
  | nil => rfl
  | cons piece pieces ih =>
      by_cases proper : piece.Proper
      · rw [List.filter_cons_of_pos (by simpa using proper), List.foldl_cons, List.foldl_cons]
        exact ih (within_inter_left within _)
      · rw [List.filter_cons_of_neg (by simpa using proper), List.foldl_cons,
          inter_complement_of_improper within proper]
        exact ih within

theorem remainder_filter_proper (proper : scale.Proper) (pieces : List Interval) :
    remainder scale (pieces.filter fun piece => decide piece.Proper) = remainder scale pieces :=
  foldl_filter_proper pieces (within_singleton proper)

/-- Without a piece at its lower and a piece at its upper end the scale is what lies between. -/
theorem remainder_pair (belowHigh aboveLow : Int) :
    remainder scale [⟨scale.low, belowHigh⟩, ⟨aboveLow, scale.high⟩] =
      [scale.meet (Interval.meet ⟨max (belowHigh + 1) scale.low, scale.high⟩
        ⟨scale.low, min (aboveLow - 1) scale.high⟩)].filter fun piece => decide piece.Proper := by
  have low : (⟨scale.low, belowHigh⟩ : Interval).low = scale.low := rfl
  have high : (⟨aboveLow, scale.high⟩ : Interval).high = scale.high := rfl
  rw [remainder, List.foldl_cons, List.foldl_cons, List.foldl_nil,
    Interval.complement_of_low_eq low, Interval.complement_of_high_eq high, inter_window,
    inter_window, clip_clip, clip_singleton, Interval.toList_inter?]

theorem remainder_scale (proper : scale.Proper) : remainder scale [scale] = [] := by
  have beyond : ¬(⟨max (scale.high + 1) scale.low, scale.high⟩ : Interval).Proper := by
    simp only [Interval.Proper] at proper ⊢
    omega
  rw [remainder, List.foldl_cons, List.foldl_nil, Interval.complement_of_low_eq rfl, inter_window,
    clip_singleton, Interval.inter?_of_improper beyond, Option.toList_none]

/-- Without the complement of an interval a proper scale is what it shares with the interval. -/
theorem remainder_complement (interval : Interval) (proper : scale.Proper) :
    remainder scale (interval.complement scale) = (interval.inter? scale).toList := by
  by_cases ordered : interval.Proper
  · rw [Interval.complement, if_pos ordered, remainder_filter_proper proper, remainder_pair,
      Interval.toList_inter?]
    apply Interval.filter_proper_congr
    simp only [Interval.meet, Interval.Proper, Interval.mk.injEq] at ordered proper ⊢
    omega
  · rw [Interval.complement_of_improper ordered, remainder_filter_proper proper,
      remainder_scale proper, Interval.inter?_comm, Interval.inter?_of_improper ordered,
      Option.toList_none]

theorem remainder_of_improper_scale (improper : ¬scale.Proper) (interval : Interval) :
    remainder scale (interval.complement scale) = [scale] := by
  rw [Interval.complement_of_improper_scale improper, remainder, List.foldl_nil]

end Intervals

namespace Interval

/-- The complement consists of at most two proper, ascending and disjoint pieces that hold exactly
the integers of the scale outside the interval.  Taken away from the scale again it leaves what
the interval has of the scale, if there is a scale at all. -/
theorem complement_exact (interval scale : Interval) :
    (interval.complement scale).length ≤ 2 ∧
    Intervals.Within scale (interval.complement scale) ∧
    Intervals.Ascending (interval.complement scale) ∧
    Intervals.Disjoint (interval.complement scale) ∧
    (∀ value, (∃ piece ∈ interval.complement scale, value ∈ piece) ↔
      value ∈ scale ∧ value ∉ interval) ∧
    (Intervals.remainder scale (interval.complement scale) = (interval.inter? scale).toList ↔
      scale.Proper) := by
  refine ⟨Intervals.length_complement_le interval scale,
    Intervals.within_complement interval scale, Intervals.ascending_complement interval scale,
    Intervals.disjoint_complement interval scale, fun _ => mem_complement, ?_,
    Intervals.remainder_complement interval⟩
  intro same
  by_contra improper
  rw [Intervals.remainder_of_improper_scale improper, inter?_of_improper improper] at same
  contradiction

theorem complement_exact_inside_and_beyond :
    complement ⟨3, 5⟩ ⟨1, 9⟩ = [⟨1, 2⟩, ⟨6, 9⟩] ∧
    Intervals.remainder ⟨1, 9⟩ [⟨1, 2⟩, ⟨6, 9⟩] = [⟨3, 5⟩] ∧
    complement ⟨-4, 5⟩ ⟨1, 9⟩ = [⟨6, 9⟩] ∧
    Intervals.remainder ⟨1, 9⟩ [⟨6, 9⟩] = [⟨1, 5⟩] := by
  have inside : complement ⟨3, 5⟩ ⟨1, 9⟩ = [⟨1, 2⟩, ⟨6, 9⟩] := by decide
  have beyond : complement ⟨-4, 5⟩ ⟨1, 9⟩ = [⟨6, 9⟩] := by decide
  have proper : (⟨1, 9⟩ : Interval).Proper := by decide
  obtain ⟨_, _, _, _, _, restInside⟩ := complement_exact ⟨3, 5⟩ ⟨1, 9⟩
  obtain ⟨_, _, _, _, _, restBeyond⟩ := complement_exact ⟨-4, 5⟩ ⟨1, 9⟩
  rw [inside] at restInside
  rw [beyond] at restBeyond
  exact ⟨inside, restInside.mpr proper, beyond, restBeyond.mpr proper⟩

end Interval

end PartSorting
