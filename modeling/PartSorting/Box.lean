import PartSorting.Fault
import PartSorting.Part

/-!
Boxes: for each attribute a list of intervals of ratings.

A box stands for a multiset of parts.  `Box.weight` is the number of times that a part occurs in
it, the product of the numbers of intervals that contain its ratings, and a part is a member of
the box when it occurs at all.  `weight_pos_iff` joins the two views.
-/

set_option autoImplicit false

namespace PartSorting

abbrev Box := PerAttribute (List Interval)

namespace Box

/-- The box of all parts whose ratings lie on the scale. -/
def full (scale : Interval) : Box :=
  .const [scale]

/-- The box with the given lists, one for each attribute in their order. -/
def ofLists : List (List Interval) → Except Fault Box
  | [x, m, a, s] => .ok ⟨x, m, a, s⟩
  | lists => .error (.boxArity lists.length)

def volume (box : Box) : Int :=
  Intervals.size box.x * Intervals.size box.m * Intervals.size box.a * Intervals.size box.s

def totalVolume : List Box → Int
  | [] => 0
  | box :: boxes => volume box + totalVolume boxes

def inter (left right : Box) : Box :=
  .zipWith Intervals.inter left right

/-- The box with one attribute restricted to a window. -/
def keep (box : Box) (i : Attribute) (window : Interval) : Box :=
  box.set i (Intervals.clip (box.get i) window)

/-- The box with one attribute restricted to the rest of the scale outside an interval. -/
def drop (scale : Interval) (box : Box) (i : Attribute) (interval : Interval) : Box :=
  box.set i (Intervals.inter (box.get i) (interval.complement scale))

/-- The number of times that a part occurs in the box. -/
def weight (box : Box) (part : Part) : Nat :=
  Intervals.count box.x part.x * Intervals.count box.m part.m *
    Intervals.count box.a part.a * Intervals.count box.s part.s

instance : Membership Part Box where
  mem box part := ∀ i, ∃ interval ∈ box.get i, part.get i ∈ interval

theorem mem_def {part : Part} {box : Box} :
    part ∈ box ↔ ∀ i, ∃ interval ∈ box.get i, part.get i ∈ interval :=
  Iff.rfl

theorem count_pos_iff {intervals : List Interval} {value : Int} :
    0 < Intervals.count intervals value ↔ ∃ interval ∈ intervals, value ∈ interval := by
  simp [Intervals.count, List.countP_pos_iff]

/-- A part is in a box exactly if it occurs there at least once. -/
theorem weight_pos_iff {box : Box} {part : Part} : 0 < weight box part ↔ part ∈ box := by
  simp only [weight, mem_def, ← count_pos_iff]
  constructor
  · intro positive i
    have positive := Nat.pos_iff_ne_zero.mp positive
    simp only [ne_eq, Nat.mul_eq_zero, not_or] at positive
    cases i <;> simp only [PerAttribute.get] <;> omega
  · intro occurs
    exact Nat.mul_pos (Nat.mul_pos (Nat.mul_pos (occurs .x) (occurs .m)) (occurs .a)) (occurs .s)

end Box

end PartSorting
