import PartSorting.Proofs.Grid.Points

/-! # The rows of a grid are numbered by their ratings

The number of a row, written with four digits to the base of the width, has the distances of the
four ratings from the lower bound as its digits, the first attribute at the highest place.  So the
rows are as many as such numbers and stand in lexicographic order, and every part on the scale is
exactly one of them.  This needs bounds that fit into words; an empty scale has no rows, but its
bounds must not be too far apart. -/

set_option autoImplicit false

namespace PartSorting

/-- The first rating in which two parts differ is the smaller one in the part before. -/
def Part.Before (left right : Part) : Prop :=
  List.Lex (· < ·) left.toList right.toList

namespace Grid

section Digits
variable {α : Type} {high low width : Nat}

theorem div_of_digit (digit : low < width) : (high * width + low) / width = high := by
  have positive : 0 < width := Nat.zero_lt_of_lt digit
  rw [Nat.mul_comm, Nat.mul_add_div positive, Nat.div_eq_of_lt digit, Nat.add_zero]

theorem mod_of_digit (digit : low < width) : (high * width + low) % width = low := by
  rw [Nat.mul_add_mod_self_right, Nat.mod_eq_of_lt digit]

/-- Counting through the last digit for each value of the digits before it is counting on. -/
theorem flatMap_range_mul (count width : Nat) (f : Nat → List α) :
    (List.range (count * width)).flatMap f =
      (List.range count).flatMap fun high =>
        (List.range width).flatMap fun low => f (high * width + low) := by
  induction count with
  | zero => rw [Nat.zero_mul, List.range_zero, List.flatMap_nil, List.flatMap_nil]
  | succ count ih =>
      rw [Nat.succ_mul, List.range_add, List.flatMap_append, ih, List.range_succ,
        List.flatMap_append, List.flatMap_map, List.flatMap_singleton]

end Digits

def partAt (scale : Interval) (number : Nat) : Part where
  x := scale.low + (number / width scale ^ 3 : Nat)
  m := scale.low + (number / width scale ^ 2 % width scale : Nat)
  a := scale.low + (number / width scale % width scale : Nat)
  s := scale.low + (number % width scale : Nat)

theorem partAt_digits {scale : Interval} (x : Nat) {m a s : Nat} (hm : m < width scale)
    (ha : a < width scale) (hs : s < width scale) :
    partAt scale (((x * width scale + m) * width scale + a) * width scale + s) =
      ⟨scale.low + x, scale.low + m, scale.low + a, scale.low + s⟩ := by
  simp only [partAt, pow_succ, pow_zero, one_mul, ← Nat.div_div_eq_div_mul, div_of_digit hm,
    div_of_digit ha, div_of_digit hs, mod_of_digit hm, mod_of_digit ha, mod_of_digit hs]

theorem product_ratings (scale : Interval) :
    product (ratings scale) = (List.range (width scale ^ 4)).map (partAt scale) := by
  have points : width scale ^ 4 = width scale * width scale * width scale * width scale := by ring
  rw [points, List.map_eq_flatMap, flatMap_range_mul, flatMap_range_mul, flatMap_range_mul]
  simp only [product, ratings, List.flatMap_map, List.map_map]
  refine List.flatMap_congr fun x _ => ?_
  refine List.flatMap_congr fun m hm => ?_
  refine List.flatMap_congr fun a ha => ?_
  rw [List.map_eq_flatMap]
  refine List.flatMap_congr fun s hs => ?_
  rw [partAt_digits x (List.mem_range.mp hm) (List.mem_range.mp ha) (List.mem_range.mp hs)]
  rfl

theorem ascending_product {axis : List Int} (ascending : axis.Pairwise (· < ·)) :
    (product axis).Pairwise Part.Before := by
  apply List.pairwise_flatMap.mpr
  constructor
  · intro x _
    apply List.pairwise_flatMap.mpr
    constructor
    · intro m _
      apply List.pairwise_flatMap.mpr
      constructor
      · intro a _
        apply List.pairwise_map.mpr
        exact ascending.imp fun before => .cons (.cons (.cons (.rel before)))
      · refine ascending.imp fun before left inLeft right inRight => ?_
        simp only [List.mem_map] at inLeft inRight
        obtain ⟨s, _, rfl⟩ := inLeft
        obtain ⟨s', _, rfl⟩ := inRight
        exact .cons (.cons (.rel before))
    · refine ascending.imp fun before left inLeft right inRight => ?_
      simp only [List.mem_flatMap, List.mem_map] at inLeft inRight
      obtain ⟨a, _, s, _, rfl⟩ := inLeft
      obtain ⟨a', _, s', _, rfl⟩ := inRight
      exact .cons (.rel before)
  · refine ascending.imp fun before left inLeft right inRight => ?_
    simp only [List.mem_flatMap, List.mem_map] at inLeft inRight
    obtain ⟨m, _, a, _, s, _, rfl⟩ := inLeft
    obtain ⟨m', _, a', _, s', _, rfl⟩ := inRight
    exact .rel before

structure Enumerates (scale : Interval) (rows : List Part) : Prop where
  length_eq : rows.length = width scale ^ 4
  row_eq : ∀ number (inside : number < rows.length), rows[number] = partAt scale number
  ascending : rows.Pairwise Part.Before
  count_eq : ∀ part, rows.count part = if part.OnScale scale then 1 else 0

theorem enumerates_product_ratings (scale : Interval) :
    Enumerates scale (product (ratings scale)) where
  length_eq := by rw [product_ratings, List.length_map, List.length_range]
  row_eq := by
    intro number inside
    simp only [product_ratings, List.getElem_map, List.getElem_range]
  ascending := ascending_product (ascending_ratings scale)
  count_eq := by
    intro part
    split
    · rename_i onScale
      exact List.count_eq_one_of_mem (nodup_product_ratings scale)
        (mem_product_ratings.mpr onScale)
    · rename_i offScale
      exact List.count_eq_zero_of_not_mem (mt mem_product_ratings.mp offScale)

section Bounds
variable {scale : Interval} (low : FitsWord scale.low) (high : FitsWord scale.high)

include low high

theorem width_le_wordValues : width scale ≤ wordValues := by
  simp only [width, Interval.size, FitsWord, wordValues] at low high ⊢
  omega

theorem tooLarge_eq :
    tooLarge scale (width scale ^ 4 : Nat) = .gridTooLarge scale (width scale ^ 4 : Nat) := by
  have short : ∀ n : Int, n.natAbs ≤ wordValues ^ 4 → Writable n := by
    intro n bounded
    exact Nat.lt_of_le_of_lt bounded (by decide +kernel)
  have enough : 9223372036854775808 ≤ wordValues ^ 4 := by decide
  have points : width scale ^ 4 ≤ wordValues ^ 4 :=
    Nat.pow_le_pow_left (width_le_wordValues low high) 4
  rw [tooLarge, if_pos]
  refine ⟨short _ ?_, short _ ?_, short _ ?_⟩
  · simp only [FitsWord] at low
    omega
  · simp only [FitsWord] at high
    omega
  · exact points

theorem parts_of_large (large : pointLimit < width scale ^ 4) :
    parts scale = .error (.gridTooLarge scale (width scale ^ 4 : Nat)) := by
  have points : width scale * width scale * width scale * width scale = width scale ^ 4 := by
    ring
  simp only [parts, points, if_pos large, tooLarge_eq low high]

/-- On a scale with bounds that fit into words, a grid with too many parts is refused.  Any other
grid enumerates the scale, unless the bounds of an empty scale are so far apart that the length of
the axis cannot be told. -/
theorem parts_enumerate_iff :
    (pointLimit < width scale ^ 4 →
      parts scale = .error (.gridTooLarge scale (width scale ^ 4 : Nat))) ∧
    (width scale ^ 4 ≤ pointLimit →
      ((∃ rows, parts scale = .ok rows ∧ Enumerates scale rows) ↔ leastSize ≤ scale.size)) ∧
    (scale.size < leastSize → width scale = 0 ∧ parts scale = .error .axisTooLong) := by
  have farApart : scale.size < leastSize →
      width scale = 0 ∧ parts scale = .error .axisTooLong := by
    intro far
    have empty : width scale = 0 := by
      simp only [width, leastSize] at far ⊢
      omega
    have small : width scale ^ 4 ≤ pointLimit := by
      rw [empty]
      decide
    refine ⟨empty, ?_⟩
    rw [parts_of_small small, axis, if_pos far]
    rfl
  refine ⟨parts_of_large low high, ?_, farApart⟩
  intro small
  constructor
  · rintro ⟨rows, listed, _⟩
    by_contra far
    rw [(farApart (Int.not_le.mp far)).2] at listed
    contradiction
  · intro near
    refine ⟨product (ratings scale), ?_, enumerates_product_ratings scale⟩
    rw [parts_of_small small, axis_ok low high near]
    rfl

end Bounds

/-- A scale of three negative ratings and one with too many parts: row 50 has the number 1212 to
the base of three. -/
theorem parts_enumerate_iff_negative :
    (FitsWord (-3) ∧ FitsWord (-1) ∧ ∃ rows, parts ⟨-3, -1⟩ = .ok rows ∧ rows.length = 81 ∧
      rows[50]? = some ⟨-2, -1, -2, -1⟩ ∧ rows.count ⟨-1, -3, -1, -2⟩ = 1) ∧
    FitsWord 1 ∧ FitsWord 4000 ∧
      parts ⟨1, 4000⟩ = .error (.gridTooLarge ⟨1, 4000⟩ 256000000000000) := by
  have small : width ⟨-3, -1⟩ ^ 4 ≤ pointLimit := by decide
  have near : leastSize ≤ (⟨-3, -1⟩ : Interval).size := by decide
  have large : pointLimit < width ⟨1, 4000⟩ ^ 4 := by decide
  have onScale : Part.OnScale ⟨-3, -1⟩ ⟨-1, -3, -1, -2⟩ := by decide
  have low : FitsWord (⟨-3, -1⟩ : Interval).low := by decide
  have high : FitsWord (⟨-3, -1⟩ : Interval).high := by decide
  have lowToo : FitsWord (⟨1, 4000⟩ : Interval).low := by decide
  have highToo : FitsWord (⟨1, 4000⟩ : Interval).high := by decide
  obtain ⟨rows, listed, enumerated⟩ := ((parts_enumerate_iff low high).2.1 small).mpr near
  have length : rows.length = 81 := enumerated.length_eq
  have inside : 50 < rows.length := by omega
  have counted := enumerated.count_eq ⟨-1, -3, -1, -2⟩
  rw [if_pos onScale] at counted
  refine ⟨⟨low, high, rows, listed, length, ?_, counted⟩, lowToo, highToo,
    (parts_enumerate_iff lowToo highToo).1 large⟩
  rw [List.getElem?_eq_getElem inside, enumerated.row_eq 50 inside]
  decide

/-- No rating lies on this scale, whose bounds fit into words, and yet it has no grid. -/
theorem parts_of_farthest_bounds :
    let scale : Interval := ⟨9223372036854775807, -9223372036854775808⟩
    FitsWord scale.low ∧ FitsWord scale.high ∧ width scale ^ 4 = 0 ∧
      parts scale = .error .axisTooLong ∧ ¬∃ rows, parts scale = .ok rows := by
  intro scale
  have refused : parts scale = .error .axisTooLong := rfl
  refine ⟨by decide, by decide, rfl, refused, ?_⟩
  rintro ⟨rows, listed⟩
  rw [refused] at listed
  contradiction

end Grid

end PartSorting
