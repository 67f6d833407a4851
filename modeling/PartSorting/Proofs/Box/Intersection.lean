import Mathlib.Data.List.Perm.Basic
import PartSorting.Proofs.Box.Disjoint
import PartSorting.Proofs.Interval.Window

/-! # The common part of two lists, and of two boxes

An integer lies in the common part of two lists of intervals as often as there are pairs, one
interval from each list, that both contain it.  Which list comes first only decides the order of
the pieces.  Attribute by attribute this gives the common part of two boxes.  What a box has of a
scale has nothing beyond the scale, so to clip it once more changes no interval. -/

set_option autoImplicit false

namespace PartSorting

namespace Intervals

theorem clip_append (first second : List Interval) (window : Interval) :
    clip (first ++ second) window = clip first window ++ clip second window :=
  List.filterMap_append

/-- Each interval of the first list meets all of `first` before it meets anything of `second`, so
the pieces come in another order than from `first` alone and then from `second`. -/
theorem perm_inter_append (intervals first second : List Interval) :
    (inter intervals (first ++ second)).Perm (inter intervals first ++ inter intervals second) := by
  simp only [inter, clip_append]
  exact (List.flatMap_append_perm intervals _ _).symm

theorem perm_inter_comm (intervals others : List Interval) :
    (inter others intervals).Perm (inter intervals others) := by
  induction intervals with
  | nil =>
      rw [inter_nil]
      exact .refl []
  | cons interval intervals ih =>
      have apart := perm_inter_append others [interval] intervals
      rw [List.singleton_append, inter_singleton] at apart
      rw [inter_cons]
      exact apart.trans (ih.append_left _)

theorem proper_of_mem_inter {intervals others : List Interval} {piece : Interval}
    (member : piece ∈ inter intervals others) : piece.Proper := by
  obtain ⟨interval, _, inClip⟩ := List.mem_flatMap.mp member
  obtain ⟨other, _, found⟩ := List.mem_filterMap.mp inClip
  exact Interval.proper_of_inter? found

theorem within_clip_window (intervals : List Interval) (window : Interval) :
    Within window (clip intervals window) := by
  intro piece member
  obtain ⟨interval, _, found⟩ := List.mem_filterMap.mp member
  obtain ⟨proper, _, _, low, high⟩ := Interval.bounds_of_inter? found
  exact ⟨proper, low, high⟩

end Intervals

namespace Box

theorem get_inter_full (box : Box) (scale : Interval) (i : Attribute) :
    (inter box (full scale)).get i = Intervals.clip (box.get i) scale := by
  rw [inter, full, PerAttribute.get_zipWith, PerAttribute.get_const, Intervals.inter_singleton]

theorem within_inter_full (scale : Interval) (box : Box) :
    Within scale (inter box (full scale)) := by
  intro i
  rw [get_inter_full]
  exact Intervals.within_clip_window (box.get i) scale

theorem inter_full_of_within {inner outer : Interval} (low : outer.low ≤ inner.low)
    (high : inner.high ≤ outer.high) {box : Box} (within : Within inner box) :
    inter box (full outer) = box := by
  apply PerAttribute.ext_get
  intro i
  rw [get_inter_full, Intervals.clip_of_within (within i) low high]

/-- The common part multiplies: how often an integer lies in it is the product of how often it lies
in the two lists, and so it is for parts and boxes.  Its pieces are proper, the same whichever list
comes first, and disjoint if both lists are.  To clip a box to a scale again changes nothing. -/
theorem inter_multiplies :
    (∀ intervals others : List Interval,
      (∀ value, Intervals.count (Intervals.inter intervals others) value =
        Intervals.count intervals value * Intervals.count others value) ∧
      (∀ piece ∈ Intervals.inter intervals others, piece.Proper) ∧
      (Intervals.inter others intervals).Perm (Intervals.inter intervals others) ∧
      (Intervals.Disjoint intervals → Intervals.Disjoint others →
        Intervals.Disjoint (Intervals.inter intervals others))) ∧
    (∀ (left right : Box) (part : Part),
      weight (inter left right) part = weight left part * weight right part ∧
      (part ∈ inter left right ↔ part ∈ left ∧ part ∈ right)) ∧
    ∀ (box : Box) (scale : Interval),
      inter (inter box (full scale)) (full scale) = inter box (full scale) := by
  refine ⟨?_, ?_, ?_⟩
  · intro intervals others
    exact ⟨Intervals.count_inter intervals others, fun _ => Intervals.proper_of_mem_inter,
      Intervals.perm_inter_comm intervals others, Intervals.disjoint_inter⟩
  · intro left right part
    exact ⟨weight_inter left right part, mem_inter_iff⟩
  · intro box scale
    exact inter_full_of_within (Int.le_refl _) (Int.le_refl _) (within_inter_full scale box)

theorem inter_multiplies_overlapping :
    let overlapping : List Interval := [⟨1, 6⟩, ⟨4, 9⟩]
    let disjoint : List Interval := [⟨8, 7⟩, ⟨3, 5⟩, ⟨9, 12⟩]
    Intervals.inter overlapping disjoint = [⟨3, 5⟩, ⟨4, 5⟩, ⟨9, 9⟩] ∧
      Intervals.inter disjoint overlapping = [⟨3, 5⟩, ⟨4, 5⟩, ⟨9, 9⟩] ∧
      Intervals.count [⟨3, 5⟩, ⟨4, 5⟩, ⟨9, 9⟩] 4 = 2 * 1 ∧
      Intervals.Disjoint (Intervals.inter disjoint disjoint) := by
  intro overlapping disjoint
  have apart : Intervals.Disjoint disjoint := by decide
  have one : Intervals.count overlapping 4 = 2 := by decide
  have other : Intervals.count disjoint 4 = 1 := by decide
  have common : Intervals.inter overlapping disjoint = [⟨3, 5⟩, ⟨4, 5⟩, ⟨9, 9⟩] := by decide
  have swapped : Intervals.inter disjoint overlapping = [⟨3, 5⟩, ⟨4, 5⟩, ⟨9, 9⟩] := by decide
  obtain ⟨counted, _⟩ := inter_multiplies.1 overlapping disjoint
  obtain ⟨_, _, _, kept⟩ := inter_multiplies.1 disjoint disjoint
  have four := counted 4
  rw [common, one, other] at four
  exact ⟨common, swapped, four, kept apart apart⟩

end Box

end PartSorting
