import PartSorting.Condition

/-!
Restrictions of a box, one after the other.
-/

set_option autoImplicit false

namespace PartSorting

/-- One way to restrict a box. -/
inductive Restriction where
  | keep (attr : Attribute) (interval : Interval)
  | drop (attr : Attribute) (interval : Interval)
  | matching (condition : Condition)
  | clip (other : Box)

namespace Restriction

/-- The box after a restriction on a scale. -/
def apply (scale : Interval) (box : Box) : Restriction → Box
  | .keep attr interval => Box.keep box attr interval
  | .drop attr interval => Box.drop scale box attr interval
  | .matching condition => Box.keep box condition.attr (condition.window scale)
  | .clip other => Box.inter box other

end Restriction

end PartSorting
