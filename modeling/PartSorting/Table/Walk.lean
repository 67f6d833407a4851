import PartSorting.Config
import PartSorting.Trace

/-!
The walk of a single part through a table, and the judgement of many parts.

A walk starts at the entry and follows the route of each workflow that it meets.  Its depth is
bounded by the number of names in the table: a longer walk has met a name twice, so it would go
round for ever.  A part is judged by its walk, and the verdict is reported with the ratings of the
part.
-/

set_option autoImplicit false

namespace PartSorting

/-- How the walk of a part has ended. -/
structure Verdict where
  part : Part
  accepted : Bool
  path : List String
  terminal : String
  deriving DecidableEq

namespace Verdict

def event (verdict : Verdict) : TraceEvent :=
  .classified verdict.part verdict.terminal verdict.path

end Verdict

namespace Table

/-- The walk of a part that has come along a path to a name. -/
def walkFrom (table : Table) (detectCycles : Bool) (part : Part) :
    Nat → List String → String → Except Fault Verdict
  | 0, path, name => .error (.endless (path ++ [name]))
  | depth + 1, path, name =>
    match table.arrive detectCycles path name with
    | .error fault => .error fault
    | .ok none => .ok ⟨part, name == table.accept, path, name⟩
    | .ok (some workflow) =>
      walkFrom table detectCycles part depth (path ++ [name]) (workflow.route part)

/-- How the walk of a part from the entry ends. -/
def walk (table : Table) (config : Config) (part : Part) : Except Fault Verdict :=
  table.walkFrom config.detectCycles part table.depth [] config.entry

/-- The verdict on a part, reported when the walk has ended. -/
def judge (table : Table) (config : Config) (part : Part) : Traced Verdict := do
  let verdict ← Traced.ofExcept (table.walk config part)
  Traced.report verdict.event
  return verdict

def classify (table : Table) (config : Config) (part : Part) : Except Fault Verdict :=
  (table.judge config part).outcome

def judgeAll (table : Table) (config : Config) (parts : List Part) : Traced (List Verdict) :=
  parts.mapM (table.judge config)

def sumAccepted (table : Table) (config : Config) (parts : List Part) : Traced Int :=
  parts.foldlM (fun total part => do
    let verdict ← table.judge config part
    return if verdict.accepted then total + part.rating else total) 0

end Table

end PartSorting
