import PartSorting.Condition
import PartSorting.Proofs.Interval.Count

/-! # How often a part occurs in a box

Restricting one attribute keeps the weights of the parts inside and makes the others zero, and
the common part of two boxes multiplies the weights.  A box lies within the scale when all its
intervals are proper and inside it; then it has a positive volume exactly if some part occurs in
it. -/

set_option autoImplicit false

namespace PartSorting

namespace Part

def OnScale (scale : Interval) (part : Part) : Prop :=
  ∀ i, part.get i ∈ scale

theorem spellable_of_onScale {scale : Interval} {part : Part} (low : Writable scale.low)
    (high : Writable scale.high) (onScale : part.OnScale scale) : part.Spellable :=
  fun i => low.of_between high (onScale i).1 (onScale i).2

theorem onScale_iff (scale : Interval) (part : Part) :
    part.OnScale scale ↔
      part.x ∈ scale ∧ part.m ∈ scale ∧ part.a ∈ scale ∧ part.s ∈ scale := by
  constructor
  · intro inside
    exact ⟨inside .x, inside .m, inside .a, inside .s⟩
  · intro inside i
    obtain ⟨x, m, a, s⟩ := inside
    cases i with
    | x => exact x
    | m => exact m
    | a => exact a
    | s => exact s

instance (scale : Interval) (part : Part) : Decidable (part.OnScale scale) :=
  decidable_of_iff _ (onScale_iff scale part).symm

end Part

namespace Box

instance (part : Part) (box : Box) : Decidable (part ∈ box) :=
  decidable_of_iff _ weight_pos_iff

def Within (scale : Interval) (box : Box) : Prop :=
  ∀ i, Intervals.Within scale (box.get i)

theorem weight_set (box : Box) (i : Attribute) (intervals : List Interval) (part : Part)
    (kept : Prop) [Decidable kept]
    (scaled : Intervals.count intervals (part.get i) =
      if kept then Intervals.count (box.get i) (part.get i) else 0) :
    weight (box.set i intervals) part = if kept then weight box part else 0 := by
  by_cases isKept : kept
  · simp only [isKept, if_true] at scaled ⊢
    cases i <;> simp only [PerAttribute.get] at scaled <;>
      simp only [weight, PerAttribute.set, scaled]
  · simp only [isKept, if_false] at scaled ⊢
    cases i <;> simp only [PerAttribute.get] at scaled <;>
      simp only [weight, PerAttribute.set, scaled, Nat.zero_mul, Nat.mul_zero]

theorem weight_keep (box : Box) (i : Attribute) (window : Interval) (part : Part) :
    weight (box.keep i window) part = if part.get i ∈ window then weight box part else 0 :=
  weight_set box i _ part _ (Intervals.count_clip _ _ _)

theorem weight_drop (scale : Interval) (box : Box) (i : Attribute) (interval : Interval)
    (part : Part) :
    weight (drop scale box i interval) part =
      if part.get i ∈ scale ∧ part.get i ∉ interval then weight box part else 0 := by
  apply weight_set
  rw [Intervals.count_inter, Intervals.count_complement]
  split
  · exact Nat.mul_one _
  · exact Nat.mul_zero _

theorem mem_keep_iff {box : Box} {i : Attribute} {window : Interval} {part : Part} :
    part ∈ box.keep i window ↔ part.get i ∈ window ∧ part ∈ box := by
  rw [← weight_pos_iff, ← weight_pos_iff, weight_keep]
  by_cases inWindow : part.get i ∈ window
  · simp only [inWindow, if_true, true_and]
  · simp only [inWindow, if_false, Nat.lt_irrefl, false_and]

theorem mem_drop_iff {scale : Interval} {box : Box} {i : Attribute} {interval : Interval}
    {part : Part} :
    part ∈ drop scale box i interval ↔
      (part.get i ∈ scale ∧ part.get i ∉ interval) ∧ part ∈ box := by
  rw [← weight_pos_iff, ← weight_pos_iff, weight_drop]
  by_cases inRest : part.get i ∈ scale ∧ part.get i ∉ interval
  · simp only [inRest, not_false_eq_true, and_self, if_true, true_and]
  · simp only [inRest, if_false, Nat.lt_irrefl, false_and]

theorem weight_inter (left right : Box) (part : Part) :
    weight (inter left right) part = weight left part * weight right part := by
  simp only [weight, inter, PerAttribute.zipWith, Intervals.count_inter]
  ac_rfl

theorem mem_inter_iff {left right : Box} {part : Part} :
    part ∈ inter left right ↔ part ∈ left ∧ part ∈ right := by
  simp only [← weight_pos_iff, weight_inter, Nat.pos_iff_ne_zero, ne_eq, Nat.mul_eq_zero, not_or]

theorem weight_full (scale : Interval) (part : Part) :
    weight (full scale) part = if part.OnScale scale then 1 else 0 := by
  have single : ∀ value, Intervals.count [scale] value = if value ∈ scale then 1 else 0 := by
    intro value
    rw [Intervals.count_cons, Intervals.count_nil, Nat.zero_add]
  simp only [weight, full, PerAttribute.const, single, Part.onScale_iff]
  split_ifs <;> simp_all

theorem within_full {scale : Interval} (proper : scale.Proper) : Within scale (full scale) := by
  intro i
  rw [full, PerAttribute.get_const]
  exact Intervals.within_singleton proper

theorem within_inter_right {scale : Interval} {right : Box} (within : Within scale right)
    (left : Box) : Within scale (inter left right) := by
  intro i
  rw [inter, PerAttribute.get_zipWith]
  exact Intervals.within_inter_right (within i) _

theorem within_inter_left {scale : Interval} {left : Box} (within : Within scale left)
    (right : Box) : Within scale (inter left right) := by
  intro i
  rw [inter, PerAttribute.get_zipWith]
  exact Intervals.within_inter_left (within i) _

theorem within_set {scale : Interval} {box : Box} (within : Within scale box) (i : Attribute)
    {intervals : List Interval} (listed : Intervals.Within scale intervals) :
    Within scale (box.set i intervals) := by
  intro j
  rw [PerAttribute.get_set]
  split
  · exact listed
  · exact within j

theorem within_keep {scale : Interval} {box : Box} (within : Within scale box) (i : Attribute)
    (window : Interval) : Within scale (box.keep i window) :=
  within_set within i (Intervals.within_clip (within i) window)

theorem within_drop {scale : Interval} {box : Box} (within : Within scale box) (i : Attribute)
    (interval : Interval) : Within scale (drop scale box i interval) :=
  within_set within i (Intervals.within_inter_left (within i) _)

theorem onScale_of_mem {scale : Interval} {box : Box} (within : Within scale box) {part : Part}
    (inside : part ∈ box) : part.OnScale scale := by
  intro i
  exact Intervals.mem_scale_of_count_pos (within i) (count_pos_iff.mpr (inside i))

theorem mem_window_iff_admits {scale : Interval} {box : Box} (within : Within scale box)
    {part : Part} (inside : part ∈ box) (condition : Condition) :
    part.get condition.attr ∈ condition.window scale ↔ condition.admits part = true :=
  Condition.mem_window_iff (onScale_of_mem within inside condition.attr)

theorem volume_pos_iff {scale : Interval} {box : Box} (within : Within scale box) :
    0 < volume box ↔ ∃ part, 0 < weight box part := by
  constructor
  · intro positive
    have sized : ∀ i, 0 < Intervals.size (box.get i) := by
      intro i
      have nonneg := Intervals.size_nonneg (within i)
      rcases Int.lt_or_eq_of_le nonneg with sized | empty
      · exact sized
      · cases i <;> simp only [PerAttribute.get] at empty <;> simp [volume, ← empty] at positive
    obtain ⟨value, occurs⟩ := Classical.skolem.mp fun i =>
      (Intervals.size_pos_iff (within i)).mp (sized i)
    refine ⟨.ofFn value, Nat.mul_pos (Nat.mul_pos (Nat.mul_pos ?_ ?_) ?_) ?_⟩
    · exact occurs .x
    · exact occurs .m
    · exact occurs .a
    · exact occurs .s
  · intro inhabited
    obtain ⟨part, occurs⟩ := inhabited
    have sized : ∀ i, 0 < Intervals.size (box.get i) := fun i =>
      (Intervals.size_pos_iff (within i)).mpr
        ⟨part.get i, count_pos_iff.mpr (weight_pos_iff.mp occurs i)⟩
    exact Int.mul_pos (Int.mul_pos (Int.mul_pos (sized .x) (sized .m)) (sized .a)) (sized .s)

theorem weight_eq_zero_of_volume_eq_zero {scale : Interval} {box : Box}
    (within : Within scale box) (empty : ¬0 < volume box) (part : Part) : weight box part = 0 :=
  Nat.eq_zero_of_not_pos fun occurs => empty ((volume_pos_iff within).mpr ⟨part, occurs⟩)

end Box

end PartSorting
