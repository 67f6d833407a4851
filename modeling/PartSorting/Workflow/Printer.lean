import PartSorting.Text.Fields
import PartSorting.Workflow

/-!
Workflows written as texts.
-/

set_option autoImplicit false

namespace PartSorting

namespace Rule

def chars (rule : Rule) : List Char :=
  rule.condition.chars ++ ':' :: rule.target.toList

end Rule

namespace Workflow

def chars (workflow : Workflow) : List Char :=
  workflow.name.toList ++ '\x7b' ::
    Text.join ',' (workflow.rules.map Rule.chars ++ [workflow.fallback.toList]) ++ ['\x7d']

def text (workflow : Workflow) : String :=
  String.ofList workflow.chars

end Workflow

end PartSorting
