import PartSorting.Block
import PartSorting.Table.Rows
import PartSorting.Text.Numeral

/-!
The grid of all parts on a small scale, and the count of accepted parts by trying each.

The grid runs through the parts in the order of their ratings, the last attribute fastest.  Its
axis is made of 64-bit words: the first two ratings have to fit, and a later one that does not
fit wraps around.
-/

set_option autoImplicit false

namespace PartSorting

namespace Grid

/-- The largest number of parts that a grid may have. -/
def pointLimit : Nat := 20000000

def width (scale : Interval) : Nat :=
  scale.size.toNat

/-- The most negative size that an empty scale may have: where a 64-bit length, rounded to a
53-bit mantissa, ends. -/
def leastSize : Int := -9223372036854776832

def axis (scale : Interval) : Except Fault (List Int) :=
  if scale.size < leastSize then
    .error .axisTooLong
  else if 0 < scale.size ∧ ¬FitsWord scale.low ∨ 1 < scale.size ∧ ¬FitsWord (scale.low + 1) then
    .error .wordOverflow
  else
    .ok ((List.range (width scale)).map fun (step : Nat) => (scale.low + step).bmod wordValues)

/-- All parts with ratings on an axis, in lexicographic order. -/
def product (axis : List Int) : List Part :=
  axis.flatMap fun x => axis.flatMap fun m => axis.flatMap fun a => axis.map fun s => ⟨x, m, a, s⟩

/-- The fault that a grid is too large; the numbers in its message have to be written out. -/
def tooLarge (scale : Interval) (points : Int) : Fault :=
  if Writable scale.low ∧ Writable scale.high ∧ Writable points then
    .gridTooLarge scale points
  else
    .integerTooLong

def parts (scale : Interval) : Except Fault (List Part) :=
  let points := width scale * width scale * width scale * width scale
  if pointLimit < points then
    .error (tooLarge scale points)
  else
    (axis scale).map product

end Grid

namespace Table

/-- The number of accepted parts on the scale, found by trying each. -/
def countByTrial (table : Table) (config : Config) : Except Fault Nat := do
  let parts ← Grid.parts config.scale
  let mask ← table.acceptMask config parts
  return mask.count true

end Table

end PartSorting
