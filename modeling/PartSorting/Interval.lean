/-!
Closed integer intervals and lists of them.

An interval whose bounds are the wrong way round contains no integer; such improper intervals
may be given, but none is ever produced by the operations below.  A list of intervals stands for
a multiset of integers: `Intervals.count` says how often each integer occurs in it.
`mem_inter?` and `mem_complement` say what the operations on one interval contain.
-/

set_option autoImplicit false

namespace PartSorting

structure Interval where
  low : Int
  high : Int
  deriving DecidableEq

namespace Interval

instance : Membership Int Interval where
  mem interval value := interval.low ≤ value ∧ value ≤ interval.high

theorem mem_def {value : Int} {interval : Interval} :
    value ∈ interval ↔ interval.low ≤ value ∧ value ≤ interval.high :=
  Iff.rfl

instance (value : Int) (interval : Interval) : Decidable (value ∈ interval) :=
  decidable_of_iff _ mem_def.symm

/-- An interval is proper when its bounds are in order, so that it contains something. -/
def Proper (interval : Interval) : Prop :=
  interval.low ≤ interval.high

instance (interval : Interval) : Decidable interval.Proper :=
  inferInstanceAs (Decidable (interval.low ≤ interval.high))

/-- The number of integers in a proper interval; it is not positive for an improper one. -/
def size (interval : Interval) : Int :=
  interval.high - interval.low + 1

/-- The integers common to two intervals, if there are any. -/
def inter? (left right : Interval) : Option Interval :=
  let common : Interval := ⟨max left.low right.low, min left.high right.high⟩
  if common.Proper then some common else none

/-- The integers of the scale that are not in the interval, below it and above it.
An improper interval takes nothing away from the scale. -/
def complement (interval scale : Interval) : List Interval :=
  if interval.Proper then
    [⟨scale.low, min (interval.low - 1) scale.high⟩,
      ⟨max (interval.high + 1) scale.low, scale.high⟩].filter (fun piece => decide piece.Proper)
  else
    [scale].filter (fun piece => decide piece.Proper)

theorem proper_iff_exists_mem (interval : Interval) :
    interval.Proper ↔ ∃ value, value ∈ interval := by
  simp only [Proper, mem_def]
  constructor
  · intro ordered
    exact ⟨interval.low, Int.le_refl _, ordered⟩
  · rintro ⟨value, above, below⟩
    omega

theorem mem_inter? {left right : Interval} {value : Int} :
    (∃ common, left.inter? right = some common ∧ value ∈ common) ↔
      value ∈ left ∧ value ∈ right := by
  by_cases overlap : max left.low right.low ≤ min left.high right.high
  · simp only [inter?, Proper, overlap, if_true, Option.some.injEq, exists_eq_left', mem_def]
    omega
  · simp only [inter?, Proper, overlap, if_false, reduceCtorEq, false_and, exists_false,
      false_iff, mem_def]
    omega

theorem proper_of_inter? {left right common : Interval}
    (found : left.inter? right = some common) : common.Proper := by
  by_cases overlap : max left.low right.low ≤ min left.high right.high
  · simp only [inter?, Proper, overlap, if_true, Option.some.injEq] at found
    exact found ▸ overlap
  · simp [inter?, Proper, overlap] at found

/-- An integer lies in the complement exactly if it is on the scale and not in the interval. -/
theorem mem_complement {interval scale : Interval} {value : Int} :
    (∃ piece ∈ interval.complement scale, value ∈ piece) ↔
      value ∈ scale ∧ value ∉ interval := by
  by_cases ordered : interval.Proper
  · simp only [complement, ordered, if_true, List.mem_filter, List.mem_cons,
      List.not_mem_nil, or_false, decide_eq_true_eq]
    simp only [Proper, mem_def] at ordered ⊢
    constructor
    · rintro ⟨piece, ⟨rfl | rfl, _⟩, inside⟩ <;> simp only at inside <;> omega
    · rintro ⟨inside, outside⟩
      by_cases below : value < interval.low
      · exact ⟨_, ⟨.inl rfl, by simp only; omega⟩, by simp only; omega⟩
      · exact ⟨_, ⟨.inr rfl, by simp only; omega⟩, by simp only; omega⟩
  · simp only [complement, ordered, if_false, List.mem_filter, List.mem_singleton,
      decide_eq_true_eq]
    simp only [Proper, mem_def] at ordered ⊢
    constructor
    · rintro ⟨piece, ⟨rfl, _⟩, inside⟩
      omega
    · rintro ⟨inside, _⟩
      exact ⟨_, ⟨rfl, by omega⟩, inside⟩

end Interval

namespace Intervals

/-- The parts of the listed intervals that lie in a window, in the same order. -/
def clip (intervals : List Interval) (window : Interval) : List Interval :=
  intervals.filterMap (fun interval => interval.inter? window)

/-- The common parts of each interval of the first list with each of the second. -/
def inter (intervals others : List Interval) : List Interval :=
  intervals.flatMap (fun interval => clip others interval)

def size : List Interval → Int
  | [] => 0
  | interval :: intervals => interval.size + size intervals

/-- The number of listed intervals that contain an integer. -/
def count (intervals : List Interval) (value : Int) : Nat :=
  intervals.countP (fun interval => decide (value ∈ interval))

end Intervals

end PartSorting
