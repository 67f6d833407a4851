import PartSorting.Trace
import PartSorting.Workflow

/-!
A box divided along the rules of a workflow.

Each rule takes the part of the box that lies in its window and leaves the rest to the rules
after it; what remains in the end goes to the fallback.  Only boxes of positive volume are passed
on, and a rule that gets none is reported as pruned.
-/

set_option autoImplicit false

namespace PartSorting

structure Division where
  pieces : List (String × Box)
  pruned : List Rule

namespace Division

/-- The reports that a workflow of a name makes on the rules that got nothing. -/
def prunes (division : Division) (name : String) : List TraceEvent :=
  division.pruned.map fun rule => .pruned name rule.condition rule.target

end Division

namespace Workflow

/-- The division of a box by rules in order; nothing is left to divide once the volume is zero. -/
def divideBy (scale : Interval) (fallback : String) : List Rule → Box → Division
  | [], box => if 0 < Box.volume box then ⟨[(fallback, box)], []⟩ else ⟨[], []⟩
  | rule :: rules, box =>
    let window := rule.condition.window scale
    let matched := Box.keep box rule.condition.attr window
    let rest := Box.drop scale box rule.condition.attr window
    let later :=
      if Box.volume rest = 0 then ⟨[], []⟩ else divideBy scale fallback rules rest
    if 0 < Box.volume matched then
      ⟨(rule.target, matched) :: later.pieces, later.pruned⟩
    else
      ⟨later.pieces, rule :: later.pruned⟩

def divide (workflow : Workflow) (scale : Interval) (box : Box) : Division :=
  divideBy scale workflow.fallback workflow.rules box

/-- The pieces of a box with their targets, the pruned rules being reported. -/
def split (workflow : Workflow) (scale : Interval) (box : Box) : Traced (List (String × Box)) := do
  let division := workflow.divide scale box
  Traced.reportAll (division.prunes workflow.name)
  return division.pieces

end Workflow

end PartSorting
