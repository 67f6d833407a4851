import PartSorting.Proofs.Box.Weight

/-! # Boxes in which no part occurs twice

Intervals are disjoint exactly if no integer occurs more than once in them.  Clipping, the common
part and the complement keep to this, so a box whose lists are disjoint stays one when it is
restricted. -/

set_option autoImplicit false

namespace PartSorting

theorem Interval.inter?_eq_none_iff {left right : Interval} :
    left.inter? right = none ↔ ∀ value, value ∈ left → value ∉ right := by
  constructor
  · intro nothing value inLeft inRight
    obtain ⟨common, found, _⟩ := mem_inter?.mpr ⟨inLeft, inRight⟩
    exact absurd (nothing.symm.trans found) nofun
  · intro apart
    cases found : left.inter? right with
    | none => rfl
    | some common =>
        obtain ⟨value, inside⟩ := (proper_iff_exists_mem common).mp (proper_of_inter? found)
        obtain ⟨inLeft, inRight⟩ := mem_inter?.mp ⟨common, found, inside⟩
        exact absurd inRight (apart value inLeft)

namespace Intervals

def Disjoint (intervals : List Interval) : Prop :=
  intervals.Pairwise fun left right => ∀ value, value ∈ left → value ∉ right

instance (intervals : List Interval) : Decidable (Disjoint intervals) :=
  decidable_of_iff (intervals.Pairwise fun left right => left.inter? right = none)
    (by simp only [Disjoint, Interval.inter?_eq_none_iff])

theorem count_le_one {intervals : List Interval} (disjoint : Disjoint intervals) (value : Int) :
    count intervals value ≤ 1 := by
  induction intervals with
  | nil => exact Nat.zero_le 1
  | cons interval intervals ih =>
      obtain ⟨apart, rest⟩ := List.pairwise_cons.mp disjoint
      rw [count_cons]
      by_cases inside : value ∈ interval
      · have nowhere : ¬0 < count intervals value := by
          intro occurs
          obtain ⟨other, member, also⟩ := Box.count_pos_iff.mp occurs
          exact apart other member value inside also
        rw [if_pos inside]
        omega
      · rw [if_neg inside]
        exact ih rest

theorem disjoint_of_count_le_one {intervals : List Interval}
    (once : ∀ value, count intervals value ≤ 1) : Disjoint intervals := by
  induction intervals with
  | nil => exact .nil
  | cons interval intervals ih =>
      apply List.pairwise_cons.mpr
      constructor
      · intro other member value inside insideToo
        have occurs : 0 < count intervals value := Box.count_pos_iff.mpr ⟨other, member, insideToo⟩
        have single := once value
        rw [count_cons, if_pos inside] at single
        omega
      · apply ih
        intro value
        have single := once value
        rw [count_cons] at single
        omega

theorem disjoint_singleton (interval : Interval) : Disjoint [interval] :=
  List.pairwise_singleton _ _

theorem disjoint_clip {intervals : List Interval} (disjoint : Disjoint intervals)
    (window : Interval) : Disjoint (clip intervals window) := by
  apply disjoint_of_count_le_one
  intro value
  rw [count_clip]
  split
  · exact count_le_one disjoint value
  · exact Nat.zero_le 1

theorem disjoint_inter {intervals others : List Interval} (disjoint : Disjoint intervals)
    (disjointToo : Disjoint others) : Disjoint (inter intervals others) := by
  apply disjoint_of_count_le_one
  intro value
  rw [count_inter]
  exact Nat.mul_le_mul (count_le_one disjoint value) (count_le_one disjointToo value)

theorem disjoint_complement (interval scale : Interval) :
    Disjoint (interval.complement scale) := by
  apply disjoint_of_count_le_one
  intro value
  rw [count_complement]
  split
  · exact Nat.le_refl 1
  · exact Nat.zero_le 1

end Intervals

namespace Box

def Disjoint (box : Box) : Prop :=
  ∀ i, Intervals.Disjoint (box.get i)

instance (box : Box) : Decidable (Disjoint box) :=
  decidable_of_iff (∀ i ∈ Attribute.all, Intervals.Disjoint (box.get i))
    ⟨fun all i => all i (Attribute.mem_all i), fun disjoint i _ => disjoint i⟩

theorem weight_of_disjoint {box : Box} (disjoint : Disjoint box) (part : Part) :
    weight box part = if part ∈ box then 1 else 0 := by
  have once := fun i => Intervals.count_le_one (disjoint i) (part.get i)
  have atMost : weight box part ≤ 1 :=
    Nat.mul_le_mul (Nat.mul_le_mul (Nat.mul_le_mul (once .x) (once .m)) (once .a)) (once .s)
  by_cases member : part ∈ box
  · rw [if_pos member]
    exact Nat.le_antisymm atMost (weight_pos_iff.mpr member)
  · rw [if_neg member]
    exact Nat.eq_zero_of_not_pos (mt weight_pos_iff.mp member)

theorem disjoint_full (scale : Interval) : Disjoint (full scale) := by
  intro i
  rw [full, PerAttribute.get_const]
  exact Intervals.disjoint_singleton scale

theorem disjoint_set {box : Box} (disjoint : Disjoint box) (i : Attribute)
    {intervals : List Interval} (listed : Intervals.Disjoint intervals) :
    Disjoint (box.set i intervals) := by
  intro j
  rw [PerAttribute.get_set]
  split
  · exact listed
  · exact disjoint j

theorem disjoint_keep {box : Box} (disjoint : Disjoint box) (i : Attribute) (window : Interval) :
    Disjoint (box.keep i window) :=
  disjoint_set disjoint i (Intervals.disjoint_clip (disjoint i) window)

theorem disjoint_drop {box : Box} (disjoint : Disjoint box) (scale : Interval) (i : Attribute)
    (interval : Interval) : Disjoint (drop scale box i interval) :=
  disjoint_set disjoint i
    (Intervals.disjoint_inter (disjoint i) (Intervals.disjoint_complement interval scale))

theorem disjoint_inter {left right : Box} (disjoint : Disjoint left)
    (disjointToo : Disjoint right) : Disjoint (inter left right) := by
  intro i
  rw [inter, PerAttribute.get_zipWith]
  exact Intervals.disjoint_inter (disjoint i) (disjointToo i)

end Box

end PartSorting
