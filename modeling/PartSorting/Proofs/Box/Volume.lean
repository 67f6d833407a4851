import Mathlib.Algebra.BigOperators.Group.Finset.Sigma
import Mathlib.Algebra.BigOperators.Ring.Finset
import Mathlib.Algebra.Order.BigOperators.Group.Finset
import Mathlib.Algebra.Order.Ring.Basic
import Mathlib.Algebra.Order.Ring.Int
import Mathlib.Data.Finset.Prod
import Mathlib.Tactic.Ring
import PartSorting.Proofs.Box.Weight

/-! # The volume of a box is a count of parts

The parts on a scale are a finite set.  The volume of a box within the scale is the sum of the
weights of these parts, and so is the total volume of several boxes. -/

set_option autoImplicit false

namespace PartSorting

open Finset

namespace Interval

def values (interval : Interval) : Finset Int :=
  (range interval.size.toNat).image fun offset : Nat => interval.low + offset

theorem mem_values {interval : Interval} {value : Int} :
    value ∈ interval.values ↔ value ∈ interval := by
  simp only [values, mem_image, mem_range, mem_def, size]
  constructor
  · rintro ⟨offset, inside, rfl⟩
    omega
  · intro inside
    obtain ⟨above, below⟩ := inside
    exact ⟨(value - interval.low).toNat, by omega, by omega⟩

theorem card_values {interval : Interval} (proper : interval.Proper) :
    (interval.values.card : Int) = interval.size := by
  have apart : Function.Injective fun offset : Nat => interval.low + offset := by
    intro first second same
    simpa using same
  rw [values, card_image_of_injective _ apart, card_range]
  simp only [Proper, size] at proper ⊢
  omega

theorem size_eq_sum {scale interval : Interval} (proper : interval.Proper)
    (low : scale.low ≤ interval.low) (high : interval.high ≤ scale.high) :
    interval.size = ∑ value ∈ scale.values, if value ∈ interval then (1 : Int) else 0 := by
  have inside : {value ∈ scale.values | value ∈ interval} = interval.values := by
    ext value
    simp only [mem_filter, mem_values, mem_def]
    omega
  rw [sum_boole, inside, card_values proper]

end Interval

theorem Intervals.size_eq_sum {scale : Interval} {intervals : List Interval}
    (within : Within scale intervals) :
    size intervals = ∑ value ∈ scale.values, (count intervals value : Int) := by
  induction intervals with
  | nil => simp [size, count_nil]
  | cons interval intervals ih =>
      obtain ⟨proper, low, high⟩ := within interval List.mem_cons_self
      have rest := ih fun other member => within other (List.mem_cons_of_mem _ member)
      simp only [size, count_cons, Nat.cast_add, Nat.cast_ite, Nat.cast_one, Nat.cast_zero,
        sum_add_distrib]
      rw [rest, Interval.size_eq_sum proper low high, add_comm]

namespace Part

def ofRatings : Int × Int × Int × Int ≃ Part where
  toFun ratings := ⟨ratings.1, ratings.2.1, ratings.2.2.1, ratings.2.2.2⟩
  invFun part := (part.x, part.m, part.a, part.s)
  left_inv _ := rfl
  right_inv _ := rfl

def allOn (scale : Interval) : Finset Part :=
  let ratings := scale.values
  (ratings ×ˢ ratings ×ˢ ratings ×ˢ ratings).map ofRatings.toEmbedding

theorem mem_allOn {scale : Interval} {part : Part} : part ∈ allOn scale ↔ part.OnScale scale := by
  simp only [allOn, mem_map_equiv, mem_product, Interval.mem_values, onScale_iff]
  exact Iff.rfl

theorem allOn_of_improper {scale : Interval} (improper : ¬scale.Proper) : allOn scale = ∅ := by
  apply eq_empty_of_forall_notMem
  intro part member
  exact improper ((Interval.proper_iff_exists_mem scale).mpr
    ⟨part.get .x, mem_allOn.mp member .x⟩)

theorem sum_allOn (scale : Interval) (f : Part → Int) :
    ∑ part ∈ allOn scale, f part =
      ∑ x ∈ scale.values, ∑ m ∈ scale.values, ∑ a ∈ scale.values, ∑ s ∈ scale.values,
        f ⟨x, m, a, s⟩ := by
  simp only [allOn, sum_map, sum_product]
  rfl

end Part

namespace Box

theorem volume_eq_sum {scale : Interval} {box : Box} (within : Within scale box) :
    volume box = ∑ part ∈ Part.allOn scale, (weight box part : Int) := by
  have sizes := fun i => Intervals.size_eq_sum (within i)
  have x := sizes .x
  have m := sizes .m
  have a := sizes .a
  have s := sizes .s
  simp only [PerAttribute.get] at x m a s
  simp only [volume, x, m, a, s, Part.sum_allOn, weight, Nat.cast_mul, ← mul_sum, ← sum_mul]

theorem volume_nonneg {scale : Interval} {box : Box} (within : Within scale box) :
    0 ≤ volume box := by
  rw [volume_eq_sum within]
  exact sum_nonneg fun part _ => Int.natCast_nonneg _

theorem volume_le_of_weight_le {scale : Interval} {small large : Box}
    (withinSmall : Within scale small) (withinLarge : Within scale large)
    (lighter : ∀ part, weight small part ≤ weight large part) : volume small ≤ volume large := by
  rw [volume_eq_sum withinSmall, volume_eq_sum withinLarge]
  apply sum_le_sum
  intro part _
  exact Int.ofNat_le.mpr (lighter part)

/-- The volume of the whole scale, a fourth power, is positive on most improper scales too. -/
theorem volume_full (scale : Interval) : volume (full scale) = scale.size ^ 4 := by
  simp only [volume, full, PerAttribute.const, Intervals.size]
  ring

theorem volume_full_pos_iff (scale : Interval) : 0 < volume (full scale) ↔ scale.size ≠ 0 := by
  rw [volume_full]
  exact Even.pow_pos_iff (by decide) (by decide)

theorem totalVolume_append (first second : List Box) :
    totalVolume (first ++ second) = totalVolume first + totalVolume second := by
  induction first with
  | nil => exact (Int.zero_add _).symm
  | cons box boxes ih => simp only [List.cons_append, totalVolume, ih, Int.add_assoc]

theorem totalVolume_reverse (boxes : List Box) : totalVolume boxes.reverse = totalVolume boxes := by
  induction boxes with
  | nil => rfl
  | cons box boxes ih =>
      simp only [List.reverse_cons, totalVolume_append, ih, totalVolume, Int.add_zero]
      exact Int.add_comm _ _

theorem totalVolume_eq_sum {scale : Interval} {boxes : List Box}
    (within : ∀ box ∈ boxes, Within scale box) :
    totalVolume boxes =
      ∑ part ∈ Part.allOn scale, ((boxes.map fun box => weight box part).sum : Int) := by
  induction boxes with
  | nil => simp [totalVolume]
  | cons box boxes ih =>
      have rest := ih fun other member => within other (List.mem_cons_of_mem _ member)
      simp only [totalVolume, rest, volume_eq_sum (within box List.mem_cons_self), List.map_cons,
        List.sum_cons, Nat.cast_add, sum_add_distrib]

end Box

end PartSorting
