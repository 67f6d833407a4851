import PartSorting.Names
import PartSorting.Workflow

/-!
Tables: the workflows of a sorting plant under their names, and the two sinks where walks end.

The names of a table are distinct and none of them is a sink.  `Table.arrive` says what awaits a
walk that comes to a name, the same for every way of evaluating: a sink ends the walk, a name met
before on the path is a cycle, and a name without a workflow is unknown.
-/

set_option autoImplicit false

namespace PartSorting

/-- Workflows under distinct names, in order, with the names of the two sinks. -/
structure Table where
  entries : List (String × Workflow)
  accept : String
  reject : String
  names_nodup : (entries.map Prod.fst).Nodup
  accept_not_name : accept ∉ entries.map Prod.fst
  reject_not_name : reject ∉ entries.map Prod.fst

namespace Table

def defaultAccept : String := "A"

def defaultReject : String := "R"

def ofWorkflows (workflows : List Workflow) (accept reject : String) : Except Fault Table :=
  let entries := workflows.map fun workflow => (workflow.name, workflow)
  match repeated : Names.firstRepeat? [] (entries.map Prod.fst) with
  | some name => .error (.workflow (.duplicateName name))
  | none =>
    if accepted : accept ∈ entries.map Prod.fst then
      .error (.workflow (.sinkName accept))
    else if rejected : reject ∈ entries.map Prod.fst then
      .error (.workflow (.sinkName reject))
    else
      .ok ⟨entries, accept, reject, (Names.firstRepeat?_eq_none_iff.mp repeated).1, accepted,
        rejected⟩

def names (table : Table) : List String :=
  table.entries.map Prod.fst

def size (table : Table) : Nat :=
  table.entries.length

def isSink (table : Table) (name : String) : Bool :=
  name == table.accept || name == table.reject

/-- The distinct names of the sinks in ascending order. -/
def sinks (table : Table) : List String :=
  if table.accept < table.reject then [table.accept, table.reject]
  else if table.reject < table.accept then [table.reject, table.accept]
  else [table.accept]

def find? (table : Table) (name : String) : Option Workflow :=
  table.entries.lookup name

/-- The workflow of a name, or the fault that it is unknown. -/
def workflow (table : Table) (name : String) : Except Fault Workflow :=
  match table.find? name with
  | some workflow => .ok workflow
  | none => .error (.unknownWorkflow name)

/-- The workflow of a name looked up as a key of the table. -/
def item (table : Table) (name : String) : Except Fault Workflow :=
  match table.find? name with
  | some workflow => .ok workflow
  | none => .error (.noSuchName name)

def successors (table : Table) (name : String) : Except Fault (List String) :=
  (table.workflow name).map fun workflow => Names.distinct [] workflow.targets

/-- Every target that is neither a sink nor a workflow, with the name that sends parts to it. -/
def unresolved (table : Table) : List (String × String) :=
  table.entries.flatMap fun (name, workflow) =>
    (workflow.targets.filter fun target =>
      !table.isSink target && (table.find? target).isNone).map fun target => (name, target)

/-- What awaits a walk that has come along a path to a name: nothing more at a sink, and a
workflow elsewhere.  Meeting a name again is a fault when cycles are to be detected. -/
def arrive (table : Table) (detectCycles : Bool) (path : List String) (name : String) :
    Except Fault (Option Workflow) :=
  if table.isSink name then
    .ok none
  else if detectCycles ∧ name ∈ path then
    .error (.cyclicWorkflow (path ++ [name]))
  else
    (table.workflow name).map some

/-- The number of names that a walk can meet before one of them must be met again or has no
workflow. -/
def depth (table : Table) : Nat :=
  table.size + 1

end Table

end PartSorting
