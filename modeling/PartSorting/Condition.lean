import PartSorting.Box
import PartSorting.Text.Numeral

/-!
Conditions on one rating of a part.

A condition can be tested on a value, and it can be read as a window: the interval of the ratings
on the scale that satisfy it.  `mem_window_iff` says that on the scale the two readings agree.
-/

set_option autoImplicit false

namespace PartSorting

inductive Comparator where
  | lessThan
  | greaterThan
  deriving DecidableEq

namespace Comparator

def sign : Comparator → Char
  | .lessThan => '<'
  | .greaterThan => '>'

def ofSign? : Char → Option Comparator
  | '<' => some .lessThan
  | '>' => some .greaterThan
  | _ => none

theorem ofSign?_sign (comparator : Comparator) : ofSign? comparator.sign = some comparator := by
  cases comparator <;> rfl

end Comparator

/-- A rating of one attribute compared strictly with a threshold. -/
structure Condition where
  attr : Attribute
  comparator : Comparator
  threshold : Int
  deriving DecidableEq

namespace Condition

def holds (condition : Condition) (value : Int) : Bool :=
  match condition.comparator with
  | .lessThan => decide (value < condition.threshold)
  | .greaterThan => decide (condition.threshold < value)

def admits (condition : Condition) (part : Part) : Bool :=
  condition.holds (part.get condition.attr)

/-- The ratings on the scale that satisfy the condition; improper if there are none. -/
def window (condition : Condition) (scale : Interval) : Interval :=
  match condition.comparator with
  | .lessThan => ⟨scale.low, min (condition.threshold - 1) scale.high⟩
  | .greaterThan => ⟨max (condition.threshold + 1) scale.low, scale.high⟩

/-- The text of a condition: the letter, the sign and the threshold. -/
def chars (condition : Condition) : List Char :=
  condition.attr.letter :: condition.comparator.sign ::
    (Numeral.ofInt condition.threshold).text

def text (condition : Condition) : String :=
  String.ofList condition.chars

theorem mem_window_iff {condition : Condition} {scale : Interval} {value : Int}
    (onScale : value ∈ scale) :
    value ∈ condition.window scale ↔ condition.holds value = true := by
  simp only [Interval.mem_def, window, holds] at onScale ⊢
  cases condition.comparator <;> simp only [decide_eq_true_eq] <;> omega

end Condition

end PartSorting
