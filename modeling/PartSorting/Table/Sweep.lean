import PartSorting.Config
import PartSorting.Trace

/-!
A load swept through a table: everything that starts at the entry, followed to the sinks.

A load is anything that a workflow can divide into loads for its targets: a box, or a group of
parts.  The sweep goes depth first and takes the targets of a workflow from the last to the
first.  Its result lists what arrived at the sinks, in the order of arrival, and counts the
workflows visited on the way.
-/

set_option autoImplicit false

namespace PartSorting

/-- How a workflow that was reached under a name divides a load among its targets. -/
abbrev Divider (Load : Type) := String → Workflow → Load → Traced (List (String × Load))

structure Arrivals (Load : Type) where
  deliveries : List (String × Load)
  visits : Nat

namespace Arrivals

variable {Load : Type}

def atSink (sink : String) (load : Load) : Arrivals Load :=
  ⟨[(sink, load)], 0⟩

def append (first second : Arrivals Load) : Arrivals Load :=
  ⟨first.deliveries ++ second.deliveries, first.visits + second.visits⟩

/-- One workflow visited, and all that came of its pieces. -/
def afterVisit (pieces : List (Arrivals Load)) : Arrivals Load :=
  pieces.foldr append ⟨[], 1⟩

end Arrivals

namespace Table

variable {Load : Type}

/-- Follow a load that has come along a path to a name. -/
def sweepFrom (table : Table) (detectCycles : Bool) (divide : Divider Load) :
    Nat → List String → String × Load → Traced (Arrivals Load)
  | 0, path, (name, _) => .fail (.endless (path ++ [name]))
  | depth + 1, path, (name, load) =>
    match table.arrive detectCycles path name with
    | .error fault => .fail fault
    | .ok none => pure (.atSink name load)
    | .ok (some workflow) => do
      let pieces ← divide name workflow load
      let arrivals ←
        pieces.reverse.mapM (sweepFrom table detectCycles divide depth (path ++ [name]))
      return .afterVisit arrivals

def sweep (table : Table) (config : Config) (divide : Divider Load) (load : Load) :
    Traced (Arrivals Load) :=
  table.sweepFrom config.detectCycles divide table.depth [] (config.entry, load)

end Table

end PartSorting
