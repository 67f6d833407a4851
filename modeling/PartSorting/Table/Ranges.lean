import PartSorting.Table.Sweep
import PartSorting.Workflow.Split

/-!
The evaluation of whole boxes of parts.

A box is cut to the scale and swept through the table, each workflow dividing it along its rules.
Every piece is reported with its volume when it is pushed on to a target.
-/

set_option autoImplicit false

namespace PartSorting

/-- The volumes that started and that reached each sink, the accepted boxes in the order of their
arrival, and the number of workflows visited. -/
structure RangeReport where
  start : Int
  accepted : Int
  rejected : Int
  boxes : List Box
  visits : Nat
  deriving DecidableEq

namespace Table

/-- The reports on the pieces that are pushed on from a name to their targets. -/
def pushes (source : String) (pieces : List (String × Box)) : List TraceEvent :=
  pieces.map fun (target, piece) => .pushed source target (Box.volume piece)

/-- Divide a box among the targets of a workflow that was reached under a name, and report each
piece. -/
def pushPieces (scale : Interval) : Divider Box := fun name workflow box => do
  let pieces ← workflow.split scale box
  Traced.reportAll (pushes name pieces)
  return pieces

/-- The box with which an evaluation starts: the whole scale, or what a given box has of it. -/
def startBox (config : Config) : Option Box → Box
  | none => .full config.scale
  | some box => .inter box (.full config.scale)

/-- The report on what has arrived at the sinks.  A sink of both names counts as rejecting. -/
def reportOf (table : Table) (start : Int) (arrivals : Arrivals Box) : RangeReport :=
  let (rejected, accepted) := arrivals.deliveries.partition fun (sink, _) => sink == table.reject
  { start
    accepted := Box.totalVolume (accepted.map Prod.snd)
    rejected := Box.totalVolume (rejected.map Prod.snd)
    boxes := accepted.map Prod.snd
    visits := arrivals.visits }

def evaluate (table : Table) (config : Config) (box : Option Box) : Traced RangeReport := do
  let start := startBox config box
  let volume := Box.volume start
  if 0 < volume then
    let arrivals ← table.sweep config (pushPieces config.scale) start
    return table.reportOf volume arrivals
  else
    return table.reportOf volume ⟨[], 0⟩

def count (table : Table) (config : Config) (box : Option Box) : Traced Int := do
  let report ← table.evaluate config box
  return report.accepted

end Table

end PartSorting
