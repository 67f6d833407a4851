import Mathlib.Data.List.Nodup
import Mathlib.Tactic.Ring
import PartSorting.Grid
import PartSorting.Proofs.Box.Weight

/-! # The grid lists every part on the scale once

The axis of a grid holds the ratings of the scale, and the grid the parts whose ratings are all
on the axis.  The axis needs bounds that fit into words, and the grid as many parts as it may
have. -/

set_option autoImplicit false

namespace PartSorting.Grid

def ratings (scale : Interval) : List Int :=
  (List.range (width scale)).map fun (step : Nat) => scale.low + step

theorem axis_ok {scale : Interval} (low : FitsWord scale.low) (high : FitsWord scale.high)
    (near : leastSize ≤ scale.size) : axis scale = .ok (ratings scale) := by
  have fits : ¬(0 < scale.size ∧ ¬FitsWord scale.low ∨
      1 < scale.size ∧ ¬FitsWord (scale.low + 1)) := by
    simp only [Interval.size, FitsWord] at low high ⊢
    omega
  rw [axis, if_neg (Int.not_lt.mpr near), if_neg fits]
  refine congrArg Except.ok (List.map_congr_left fun step member => ?_)
  have inside := List.mem_range.mp member
  apply bmod_wordValues_of_fitsWord
  simp only [width, Interval.size, FitsWord] at inside low high ⊢
  omega

theorem mem_ratings_iff {scale : Interval} {value : Int} :
    value ∈ ratings scale ↔ value ∈ scale := by
  simp only [ratings, List.mem_map, List.mem_range, width, Interval.size, Interval.mem_def]
  constructor
  · rintro ⟨step, inside, rfl⟩
    omega
  · intro inside
    obtain ⟨above, below⟩ := inside
    exact ⟨(value - scale.low).toNat, by omega, by omega⟩

theorem ascending_ratings (scale : Interval) : (ratings scale).Pairwise (· < ·) := by
  apply List.pairwise_map.mpr
  apply List.pairwise_lt_range.imp
  intro first second before
  omega

theorem mem_product {axis : List Int} {part : Part} :
    part ∈ product axis ↔ ∀ i, part.get i ∈ axis := by
  simp only [product, List.mem_flatMap, List.mem_map]
  constructor
  · rintro ⟨x, inX, m, inM, a, inA, s, inS, rfl⟩ i
    cases i with
    | x => exact inX
    | m => exact inM
    | a => exact inA
    | s => exact inS
  · intro inside
    exact ⟨part.x, inside .x, part.m, inside .m, part.a, inside .a, part.s, inside .s, rfl⟩

theorem product_eq_map (axis : List Int) :
    product axis = (axis ×ˢ axis ×ˢ axis ×ˢ axis).map fun ratings =>
      ⟨ratings.1, ratings.2.1, ratings.2.2.1, ratings.2.2.2⟩ := by
  simp only [product, SProd.sprod, List.product, List.map_flatMap, List.map_map]
  rfl

theorem nodup_product {axis : List Int} (distinct : axis.Nodup) : (product axis).Nodup := by
  rw [product_eq_map]
  apply List.Nodup.map
  · rintro ⟨x, m, a, s⟩ ⟨x', m', a', s'⟩ same
    cases same
    rfl
  · exact distinct.product (distinct.product (distinct.product distinct))

theorem mem_product_ratings {scale : Interval} {part : Part} :
    part ∈ product (ratings scale) ↔ part.OnScale scale := by
  simp only [mem_product, mem_ratings_iff, Part.OnScale]

theorem nodup_product_ratings (scale : Interval) : (product (ratings scale)).Nodup :=
  nodup_product ((ascending_ratings scale).imp Int.ne_of_lt)

theorem parts_of_small {scale : Interval} (small : width scale ^ 4 ≤ pointLimit) :
    parts scale = (axis scale).map product := by
  have points : width scale * width scale * width scale * width scale = width scale ^ 4 := by
    ring
  simp only [parts, points, if_neg (Nat.not_lt.mpr small)]

theorem parts_ok {scale : Interval} (proper : scale.Proper) (low : FitsWord scale.low)
    (high : FitsWord scale.high) (small : scale.size ^ 4 ≤ pointLimit) :
    ∃ listed, parts scale = .ok listed ∧ listed.Nodup ∧
      ∀ part, part ∈ listed ↔ part.OnScale scale := by
  have positive := (Interval.proper_iff_size_pos scale).mp proper
  have near : leastSize ≤ scale.size := by
    simp only [leastSize]
    omega
  have few : width scale ^ 4 ≤ pointLimit := by
    have sized : (width scale : Int) = scale.size := Int.toNat_of_nonneg (Int.le_of_lt positive)
    rw [← sized] at small
    exact_mod_cast small
  refine ⟨product (ratings scale), ?_, nodup_product_ratings scale, fun _ => mem_product_ratings⟩
  rw [parts_of_small few, axis_ok low high near]
  rfl

end PartSorting.Grid
