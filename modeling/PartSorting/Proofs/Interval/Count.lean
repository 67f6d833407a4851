import Mathlib.Tactic.SplitIfs
import PartSorting.Interval

/-! # How often an integer occurs in a list of intervals

Clipping keeps the occurrences inside the window and drops the others, the common part of two
lists multiplies their occurrences, and a complement contains every other integer of the scale
once.  None of these operations leaves the scale or produces an improper interval. -/

set_option autoImplicit false

namespace PartSorting

namespace Interval

theorem proper_iff_size_pos (interval : Interval) : interval.Proper ↔ 0 < interval.size := by
  simp only [Proper, size]
  omega

theorem bounds_of_inter? {left right common : Interval}
    (found : left.inter? right = some common) :
    common.Proper ∧ left.low ≤ common.low ∧ common.high ≤ left.high ∧
      right.low ≤ common.low ∧ common.high ≤ right.high := by
  have proper := proper_of_inter? found
  simp only [inter?] at found
  split at found
  · obtain rfl := Option.some.inj found
    exact ⟨proper, by dsimp only; omega, by dsimp only; omega, by dsimp only; omega,
      by dsimp only; omega⟩
  · contradiction

end Interval

namespace Intervals

theorem count_nil (value : Int) : count [] value = 0 := rfl

theorem count_cons (interval : Interval) (intervals : List Interval) (value : Int) :
    count (interval :: intervals) value =
      count intervals value + if value ∈ interval then 1 else 0 := by
  simp only [count, List.countP_cons, decide_eq_true_eq]

theorem count_append (first second : List Interval) (value : Int) :
    count (first ++ second) value = count first value + count second value :=
  List.countP_append

theorem count_toList_inter? (left right : Interval) (value : Int) :
    count (left.inter? right).toList value =
      if value ∈ left ∧ value ∈ right then 1 else 0 := by
  have members := @Interval.mem_inter? left right value
  cases found : left.inter? right with
  | none =>
      have outside : ¬(value ∈ left ∧ value ∈ right) := by
        intro both
        obtain ⟨common, isCommon, _⟩ := members.mpr both
        rw [found] at isCommon
        contradiction
      rw [if_neg outside]
      rfl
  | some common =>
      have same : value ∈ common ↔ value ∈ left ∧ value ∈ right := by
        rw [← members, found]
        simp only [Option.some.injEq, exists_eq_left']
      simp only [Option.toList_some, count_cons, count_nil, Nat.zero_add, same]

theorem clip_cons (interval : Interval) (intervals : List Interval) (window : Interval) :
    clip (interval :: intervals) window =
      (interval.inter? window).toList ++ clip intervals window := by
  cases found : interval.inter? window <;> simp [clip, found]

theorem clip_singleton (interval window : Interval) :
    clip [interval] window = (interval.inter? window).toList := by
  rw [clip_cons]
  exact List.append_nil _

theorem inter_cons (interval : Interval) (intervals others : List Interval) :
    inter (interval :: intervals) others = clip others interval ++ inter intervals others :=
  List.flatMap_cons

theorem inter_nil (intervals : List Interval) : inter intervals [] = [] :=
  List.flatMap_eq_nil_iff.mpr fun _ _ => rfl

theorem count_clip (intervals : List Interval) (window : Interval) (value : Int) :
    count (clip intervals window) value =
      if value ∈ window then count intervals value else 0 := by
  induction intervals with
  | nil => simp [clip, count_nil]
  | cons interval intervals ih =>
      rw [clip_cons, count_append, count_toList_inter?, ih, count_cons]
      by_cases inWindow : value ∈ window
      · simp only [inWindow, and_true, if_true, Nat.add_comm]
      · simp only [inWindow, and_false, if_false]

theorem count_inter (intervals others : List Interval) (value : Int) :
    count (inter intervals others) value = count intervals value * count others value := by
  induction intervals with
  | nil => simp [inter, count_nil]
  | cons interval intervals ih =>
      rw [inter_cons, count_append, count_clip, ih, count_cons, Nat.add_mul]
      by_cases inside : value ∈ interval
      · simp only [inside, if_true, Nat.one_mul, Nat.add_comm]
      · simp only [inside, if_false, Nat.zero_mul, Nat.zero_add, Nat.add_zero]

theorem count_filter_proper (intervals : List Interval) (value : Int) :
    count (intervals.filter fun interval => decide interval.Proper) value =
      count intervals value := by
  induction intervals with
  | nil => rfl
  | cons interval intervals ih =>
      by_cases proper : interval.Proper
      · simp only [List.filter_cons, proper, decide_true, if_true, count_cons, ih]
      · have outside : value ∉ interval := fun inside =>
          proper ((Interval.proper_iff_exists_mem interval).mpr ⟨value, inside⟩)
        simp only [List.filter_cons, proper, decide_false, Bool.false_eq_true, if_false,
          count_cons, outside, Nat.add_zero, ih]

theorem count_complement (interval scale : Interval) (value : Int) :
    count (interval.complement scale) value =
      if value ∈ scale ∧ value ∉ interval then 1 else 0 := by
  by_cases proper : interval.Proper
  · rw [Interval.complement, if_pos proper, count_filter_proper]
    simp only [count_cons, count_nil, Interval.mem_def, Interval.Proper] at proper ⊢
    split_ifs <;> omega
  · have outside : value ∉ interval := fun inside =>
      proper ((Interval.proper_iff_exists_mem interval).mpr ⟨value, inside⟩)
    rw [Interval.complement, if_neg proper, count_filter_proper]
    simp only [count_cons, count_nil, outside, not_false_eq_true, and_true, Nat.zero_add]

def Within (scale : Interval) (intervals : List Interval) : Prop :=
  ∀ interval ∈ intervals,
    interval.Proper ∧ scale.low ≤ interval.low ∧ interval.high ≤ scale.high

theorem within_singleton {scale : Interval} (proper : scale.Proper) : Within scale [scale] := by
  intro interval member
  obtain rfl := List.mem_singleton.mp member
  exact ⟨proper, Int.le_refl _, Int.le_refl _⟩

theorem within_clip {scale : Interval} {intervals : List Interval}
    (within : Within scale intervals) (window : Interval) :
    Within scale (clip intervals window) := by
  intro piece member
  obtain ⟨interval, intervalMember, found⟩ := List.mem_filterMap.mp member
  obtain ⟨_, low, high⟩ := within interval intervalMember
  obtain ⟨proper, lowLeft, highLeft, _, _⟩ := Interval.bounds_of_inter? found
  exact ⟨proper, by omega, by omega⟩

theorem within_inter_left {scale : Interval} {intervals : List Interval}
    (within : Within scale intervals) (others : List Interval) :
    Within scale (inter intervals others) := by
  intro piece member
  obtain ⟨interval, intervalMember, pieceMember⟩ := List.mem_flatMap.mp member
  obtain ⟨other, _, found⟩ := List.mem_filterMap.mp pieceMember
  obtain ⟨_, low, high⟩ := within interval intervalMember
  obtain ⟨proper, _, _, lowRight, highRight⟩ := Interval.bounds_of_inter? found
  exact ⟨proper, by omega, by omega⟩

theorem within_inter_right {scale : Interval} {others : List Interval}
    (within : Within scale others) (intervals : List Interval) :
    Within scale (inter intervals others) := by
  intro piece member
  obtain ⟨interval, _, pieceMember⟩ := List.mem_flatMap.mp member
  exact within_clip within interval piece pieceMember

theorem mem_scale_of_count_pos {scale : Interval} {intervals : List Interval}
    (within : Within scale intervals) {value : Int} (occurs : 0 < count intervals value) :
    value ∈ scale := by
  obtain ⟨interval, member, inside⟩ := List.countP_pos_iff.mp occurs
  obtain ⟨_, low, high⟩ := within interval member
  have inInterval : value ∈ interval := of_decide_eq_true inside
  rw [Interval.mem_def] at inInterval ⊢
  omega

theorem size_nonneg {scale : Interval} {intervals : List Interval}
    (within : Within scale intervals) : 0 ≤ size intervals := by
  induction intervals with
  | nil => exact Int.le_refl 0
  | cons interval intervals ih =>
      have rest := ih fun other member => within other (List.mem_cons_of_mem _ member)
      obtain ⟨proper, _, _⟩ := within interval List.mem_cons_self
      simp only [size, Interval.size, Interval.Proper] at proper rest ⊢
      omega

theorem size_pos_iff {scale : Interval} {intervals : List Interval}
    (within : Within scale intervals) :
    0 < size intervals ↔ ∃ value, 0 < count intervals value := by
  cases intervals with
  | nil => simp [size, count_nil]
  | cons interval intervals =>
      have rest := size_nonneg fun other member =>
        within other (List.mem_cons_of_mem interval member)
      obtain ⟨proper, _, _⟩ := within interval List.mem_cons_self
      obtain ⟨value, inside⟩ := (Interval.proper_iff_exists_mem interval).mp proper
      constructor
      · intro _
        refine ⟨value, ?_⟩
        rw [count_cons, if_pos inside]
        omega
      · intro _
        simp only [size, Interval.size, Interval.Proper] at proper rest ⊢
        omega

end Intervals

end PartSorting
