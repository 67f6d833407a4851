import PartSorting.Condition

/-!
Workflows: rules tried in order, and a fallback for the parts that no rule takes.
-/

set_option autoImplicit false

namespace PartSorting

structure Rule where
  condition : Condition
  target : String
  deriving DecidableEq

structure Workflow where
  name : String
  rules : List Rule
  fallback : String
  deriving DecidableEq

namespace Workflow

def targets (workflow : Workflow) : List String :=
  workflow.rules.map Rule.target ++ [workflow.fallback]

def routeBy (fallback : String) : List Rule → Part → String
  | [], _ => fallback
  | rule :: rules, part =>
    if rule.condition.admits part then rule.target else routeBy fallback rules part

/-- The name to which the workflow sends a part: the first rule that admits the part decides. -/
def route (workflow : Workflow) (part : Part) : String :=
  routeBy workflow.fallback workflow.rules part

theorem routeBy_mem (fallback : String) (rules : List Rule) (part : Part) :
    routeBy fallback rules part ∈ rules.map Rule.target ++ [fallback] := by
  induction rules with
  | nil => simp [routeBy]
  | cons rule rules ih =>
    by_cases admitted : rule.condition.admits part = true
    · simp [routeBy, admitted]
    · simp only [routeBy, admitted, List.map_cons, List.cons_append]
      exact List.mem_cons_of_mem _ ih

theorem route_mem_targets (workflow : Workflow) (part : Part) :
    workflow.route part ∈ workflow.targets :=
  routeBy_mem workflow.fallback workflow.rules part

end Workflow

end PartSorting
