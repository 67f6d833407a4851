import Mathlib.Algebra.BigOperators.Finprod
import Mathlib.Data.Set.Card
import PartSorting.Proofs.Box.Disjoint
import PartSorting.Proofs.Box.Volume

/-! # The volume of a box counts all its parts

Proper intervals lie within some scale, so a box of proper intervals holds finitely many parts, and
its volume is the sum of the weights of all parts whatever.  The sizes of proper intervals are
positive: the product of the four sums of sizes vanishes only where a list is empty, and then
there is no part in the box. -/

set_option autoImplicit false

namespace PartSorting

namespace Intervals

variable {scale : Interval}

theorem Within.widen {intervals : List Interval} (within : Within scale intervals)
    {wider : Interval} (low : wider.low ≤ scale.low) (high : scale.high ≤ wider.high) :
    Within wider intervals := by
  intro interval member
  obtain ⟨proper, above, below⟩ := within interval member
  exact ⟨proper, Int.le_trans low above, Int.le_trans below high⟩

theorem exists_within {intervals : List Interval}
    (proper : ∀ interval ∈ intervals, interval.Proper) : ∃ scale, Within scale intervals := by
  induction intervals with
  | nil => exact ⟨⟨0, 0⟩, nofun⟩
  | cons interval intervals ih =>
      obtain ⟨first, rest⟩ := List.forall_mem_cons.mp proper
      obtain ⟨scale, within⟩ := ih rest
      refine ⟨⟨min interval.low scale.low, max interval.high scale.high⟩, ?_⟩
      rw [Within, List.forall_mem_cons]
      constructor
      · exact ⟨first, Int.min_le_left _ _, Int.le_max_left _ _⟩
      · exact within.widen (Int.min_le_right _ _) (Int.le_max_right _ _)

theorem size_eq_zero_iff {intervals : List Interval} (within : Within scale intervals) :
    size intervals = 0 ↔ intervals = [] := by
  cases intervals with
  | nil => exact ⟨fun _ => rfl, fun _ => rfl⟩
  | cons interval intervals =>
      obtain ⟨⟨proper, _, _⟩, rest⟩ := List.forall_mem_cons.mp within
      have positive := (Interval.proper_iff_size_pos interval).mp proper
      have nonneg := size_nonneg rest
      simp only [size, reduceCtorEq, iff_false]
      omega

end Intervals

namespace Box

def Proper (box : Box) : Prop :=
  ∀ i, ∀ interval ∈ box.get i, interval.Proper

instance (box : Box) : Decidable (Proper box) :=
  decidable_of_iff (∀ i ∈ Attribute.all, ∀ interval ∈ box.get i, interval.Proper)
    ⟨fun all i => all i (Attribute.mem_all i), fun proper i _ => proper i⟩

/-- The four lists of a proper box have a scale in common. -/
theorem Proper.exists_within {box : Box} (proper : Proper box) : ∃ scale, Within scale box := by
  have listed : ∀ interval ∈ Attribute.all.flatMap box.get, interval.Proper := by
    intro interval member
    obtain ⟨i, _, inList⟩ := List.mem_flatMap.mp member
    exact proper i interval inList
  obtain ⟨scale, within⟩ := Intervals.exists_within listed
  refine ⟨scale, fun i interval inList => within interval ?_⟩
  exact List.mem_flatMap.mpr ⟨i, Attribute.mem_all i, inList⟩

section Within
variable {scale : Interval} {box : Box} (within : Within scale box)

include within

theorem mem_allOn_of_mem {part : Part} (inside : part ∈ box) : part ∈ Part.allOn scale :=
  Part.mem_allOn.mpr (onScale_of_mem within inside)

theorem finite_parts : {part | part ∈ box}.Finite :=
  (Part.allOn scale).finite_toSet.subset fun _ inside => mem_allOn_of_mem within inside

theorem volume_eq_finsum : volume box = ∑ᶠ part, (weight box part : Int) := by
  rw [volume_eq_sum within]
  symm
  apply finsum_eq_sum_of_support_subset
  intro part occurs
  have positive : 0 < weight box part :=
    Nat.pos_of_ne_zero (Nat.cast_ne_zero.mp (Function.mem_support.mp occurs))
  exact mem_allOn_of_mem within (weight_pos_iff.mp positive)

theorem volume_eq_ncard (disjoint : Disjoint box) :
    volume box = ({part | part ∈ box}.ncard : Int) := by
  have parts : {part | part ∈ box} = ↑{part ∈ Part.allOn scale | part ∈ box} := by
    ext part
    simp only [Set.mem_ofPred_eq, Finset.coe_filter, iff_and_self]
    exact mem_allOn_of_mem within
  rw [volume_eq_sum within, parts, Set.ncard_coe_finset]
  simp only [weight_of_disjoint disjoint, Nat.cast_ite, Nat.cast_one, Nat.cast_zero,
    Finset.sum_boole]

theorem volume_eq_zero_iff_get_eq_nil : volume box = 0 ↔ ∃ i, box.get i = [] := by
  have empty := fun i => Intervals.size_eq_zero_iff (within i)
  have x := empty .x
  have m := empty .m
  have a := empty .a
  have s := empty .s
  simp only [PerAttribute.get] at x m a s
  simp only [volume, mul_eq_zero, x, m, a, s]
  constructor
  · rintro (((isEmpty | isEmpty) | isEmpty) | isEmpty)
    · exact ⟨.x, isEmpty⟩
    · exact ⟨.m, isEmpty⟩
    · exact ⟨.a, isEmpty⟩
    · exact ⟨.s, isEmpty⟩
  · rintro ⟨i, isEmpty⟩
    cases i with
    | x => exact .inl (.inl (.inl isEmpty))
    | m => exact .inl (.inl (.inr isEmpty))
    | a => exact .inl (.inr isEmpty)
    | s => exact .inr isEmpty

theorem volume_eq_zero_iff_not_mem : volume box = 0 ↔ ∀ part, part ∉ box := by
  have nonneg := volume_nonneg within
  have inhabited := volume_pos_iff within
  simp only [weight_pos_iff] at inhabited
  rw [← not_exists, ← inhabited]
  omega

end Within

/-- The volume of a box of proper intervals is the sum of the weights of all parts, of which only
finitely many lie in the box.  It is their number if the lists are disjoint, and zero exactly if a
list is empty, which is if the box holds no part. -/
theorem volume_counts {box : Box} (proper : Proper box) :
    {part | part ∈ box}.Finite ∧
    volume box = ∑ᶠ part, (weight box part : Int) ∧
    (Disjoint box → volume box = ({part | part ∈ box}.ncard : Int)) ∧
    (volume box = 0 ↔ ∃ i, box.get i = []) ∧
    (volume box = 0 ↔ ∀ part, part ∉ box) := by
  obtain ⟨scale, within⟩ := proper.exists_within
  exact ⟨finite_parts within, volume_eq_finsum within, volume_eq_ncard within,
    volume_eq_zero_iff_get_eq_nil within, volume_eq_zero_iff_not_mem within⟩

/-- The first box has intervals that overlap, the second has disjoint ones in the same places, and
the third no interval for one attribute. -/
theorem volume_counts_overlapping :
    let overlapping : Box := ⟨[⟨1, 3⟩, ⟨2, 5⟩], [⟨-4, -4⟩], [⟨0, 1⟩], [⟨7, 9⟩]⟩
    let disjoint : Box := ⟨[⟨1, 3⟩, ⟨4, 5⟩], [⟨-4, -4⟩], [⟨0, 1⟩], [⟨7, 9⟩]⟩
    let vacant : Box := ⟨[⟨1, 3⟩], [], [⟨0, 1⟩], [⟨7, 9⟩]⟩
    (Proper overlapping ∧ ∑ᶠ part, (weight overlapping part : Int) = 42) ∧
    (Proper disjoint ∧ Disjoint disjoint ∧ {part | part ∈ disjoint}.ncard = 30) ∧
    (Proper vacant ∧ volume vacant = 0 ∧ ∀ part, part ∉ vacant) := by
  intro overlapping disjoint vacant
  have proper : Proper overlapping := by decide
  have properToo : Proper disjoint := by decide
  have properVacant : Proper vacant := by decide
  have apart : Disjoint disjoint := by decide
  have volumeOverlapping : volume overlapping = 42 := by decide
  have volumeDisjoint : volume disjoint = 30 := by decide
  obtain ⟨_, summed, _⟩ := volume_counts proper
  obtain ⟨_, _, counted, _⟩ := volume_counts properToo
  obtain ⟨_, _, _, someEmpty, noneInside⟩ := volume_counts properVacant
  have zero : volume vacant = 0 := someEmpty.mpr ⟨.m, rfl⟩
  refine ⟨⟨proper, summed.symm.trans volumeOverlapping⟩, ⟨properToo, apart, ?_⟩,
    properVacant, zero, noneInside.mp zero⟩
  exact Int.ofNat_inj.mp ((counted apart).symm.trans volumeDisjoint)

end Box

end PartSorting
