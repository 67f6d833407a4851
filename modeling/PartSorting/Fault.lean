import PartSorting.Interval

/-!
Everything that can go wrong, as causes with their data.

Faults of the input and of the workflow graph have a kind; the others are faults of a value.
-/

set_option autoImplicit false

namespace PartSorting

inductive ConditionDefect where
  | empty
  | noComparator (text : String)
  | badThreshold (text : String)
  deriving DecidableEq

inductive WorkflowDefect where
  | noBraces (text : String)
  | badName (text : String)
  | noFallback (text : String)
  | badRule (rule text : String)
  | badTarget (target text : String)
  | duplicateName (name : String)
  | sinkName (name : String)
  deriving DecidableEq

inductive RecordDefect where
  | noBraces (text : String)
  | noEquals (field : String)
  | noAttribute (field : String)
  | duplicateAttribute (tag text : String)
  | badValue (field : String)
  | missingAttributes (tags : List String) (text : String)
  deriving DecidableEq

inductive FieldType where
  | integer
  | string
  | boolean
  deriving DecidableEq

inductive ConfigDefect where
  | unknownId (id : String)
  | notAnObject
  | missingField (field : String)
  | wrongType (field : String) (type : FieldType)
  | otherId (requested found : String)
  | emptyScale
  | blankEntry
  | emptySink
  | equalSinks
  | foreignSinks (tableAccept tableReject configAccept configReject : String)
  deriving DecidableEq

inductive Fault where
  | condition (defect : ConditionDefect)
  | workflow (defect : WorkflowDefect)
  | record (defect : RecordDefect)
  | unknownAttribute (tag : String)
  | unknownComparator (symbol text : String)
  | unknownWorkflow (name : String)
  | cyclicWorkflow (path : List String)
  /-- A numeral has more digits than are read. -/
  | numeralTooLong (digits : Nat)
  /-- An integer has more digits than are written. -/
  | integerTooLong
  | boxArity (count : Nat)
  | blockShape (shape : List Nat)
  | gridTooLarge (scale : Interval) (points : Int)
  /-- The bounds of an empty scale are too far apart. -/
  | axisTooLong
  /-- An integer does not fit into a signed 64-bit word. -/
  | wordOverflow
  | noSuchName (name : String)
  | invalidJson
  | config (defect : ConfigDefect)
  /-- The walk along these names goes round for ever. -/
  | endless (path : List String)
  deriving DecidableEq

inductive FaultCategory where
  | input
  | graph
  deriving DecidableEq

/-- The kinds of faults of the input and of the workflow graph. -/
inductive FaultKind where
  | malformedCondition
  | malformedWorkflow
  | malformedRecord
  | unknownAttribute
  | unknownComparator
  | unknownWorkflow
  | cyclicWorkflow
  deriving DecidableEq

namespace FaultKind

def all : List FaultKind :=
  [.malformedCondition, .malformedWorkflow, .malformedRecord, .unknownAttribute,
    .unknownComparator, .unknownWorkflow, .cyclicWorkflow]

def category : FaultKind → FaultCategory
  | .unknownWorkflow | .cyclicWorkflow => .graph
  | _ => .input

def code : FaultKind → String
  | .malformedCondition => "MALFORMED_CONDITION"
  | .malformedWorkflow => "MALFORMED_WORKFLOW"
  | .malformedRecord => "MALFORMED_RECORD"
  | .unknownAttribute => "UNKNOWN_ATTRIBUTE"
  | .unknownComparator => "UNKNOWN_COMPARATOR"
  | .unknownWorkflow => "UNKNOWN_WORKFLOW"
  | .cyclicWorkflow => "CYCLIC_WORKFLOW"

/-- What a kind means, for audits. -/
def summary : FaultKind → String
  | .malformedCondition => "Condition text is not of the form <attr><op><int>."
  | .malformedWorkflow =>
    "Workflow text is not of the form name\x7bcond:target,...,fallback\x7d."
  | .malformedRecord => "Record text is not of the form \x7bx=..,m=..,a=..,s=..\x7d."
  | .unknownAttribute => "Attribute tag is not one of x, m, a, s."
  | .unknownComparator => "Comparator is not '<' or '>'."
  | .unknownWorkflow => "Target name has no workflow and is not a sink."
  | .cyclicWorkflow => "Workflow graph revisits a workflow on one evaluation path."

end FaultKind

namespace FaultCategory

def code : FaultCategory → String
  | .input => "INPUT"
  | .graph => "GRAPH"

end FaultCategory

namespace Fault

/-- The kind of a fault, if it is one of the input or of the workflow graph. -/
def kind : Fault → Option FaultKind
  | .condition _ => some .malformedCondition
  | .workflow _ => some .malformedWorkflow
  | .record _ => some .malformedRecord
  | .unknownAttribute _ => some .unknownAttribute
  | .unknownComparator _ _ => some .unknownComparator
  | .unknownWorkflow _ => some .unknownWorkflow
  | .cyclicWorkflow _ => some .cyclicWorkflow
  | _ => none

end Fault

end PartSorting
