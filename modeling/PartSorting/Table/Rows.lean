import PartSorting.Table.Sweep

/-!
The evaluation of many parts at once, as numbered rows.

All rows are swept through the table together: a workflow groups them by their targets, and a
target that no row takes is not visited.  A mask then tells which rows reached the accepting sink.
-/

set_option autoImplicit false

namespace PartSorting

abbrev Row := Part × Nat

namespace Workflow

/-- Rows grouped by the first rule that admits them; each group keeps the order of the rows. -/
def groupBy (fallback : String) : List Rule → List Row → List (String × List Row)
  | [], rows => if rows.isEmpty then [] else [(fallback, rows)]
  | rule :: rules, rows =>
    let (hits, others) := rows.partition fun row => rule.condition.admits row.1
    let later := groupBy fallback rules others
    if hits.isEmpty then later else (rule.target, hits) :: later

def group : Divider (List Row) := fun _ workflow rows =>
  pure (groupBy workflow.fallback workflow.rules rows)

end Workflow

namespace Table

/-- A mask of the given length that is set at the listed positions. -/
def maskOf (length : Nat) (positions : List Nat) : List Bool :=
  (positions.foldl (fun mask position => mask.setIfInBounds position true)
    (Array.replicate length false)).toList

def acceptMask (table : Table) (config : Config) (parts : List Part) :
    Except Fault (List Bool) := do
  if parts.isEmpty then
    return []
  else
    let arrivals ← (table.sweep config Workflow.group parts.zipIdx).outcome
    let accepted := arrivals.deliveries.filter fun delivery => delivery.1 == table.accept
    return maskOf parts.length (accepted.flatMap fun delivery => delivery.2.map Prod.snd)

end Table

end PartSorting
