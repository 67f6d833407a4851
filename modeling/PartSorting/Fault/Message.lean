import PartSorting.Fault
import PartSorting.Text.Numeral
import PartSorting.Text.Quoted

/-!
The wording of faults.

Texts and names of the input are quoted, so that a message is one line whatever they hold; only a
path of names and the identifier of a configuration stand as they are.
-/

set_option autoImplicit false

namespace PartSorting

namespace ConditionDefect

def message : ConditionDefect → String
  | .empty => "Empty condition"
  | .noComparator text => "Missing comparator in condition: " ++ Text.quote text
  | .badThreshold text => "Threshold is not an integer in condition: " ++ Text.quote text

end ConditionDefect

namespace WorkflowDefect

def message : WorkflowDefect → String
  | .noBraces text => "Missing braces in workflow: " ++ Text.quote text
  | .badName text => "Invalid workflow name in: " ++ Text.quote text
  | .noFallback text => "Missing fallback in workflow: " ++ Text.quote text
  | .badRule rule text =>
    "Rule " ++ Text.quote rule ++ " is not <condition>:<target> in workflow: " ++ Text.quote text
  | .badTarget target text =>
    "Invalid target name " ++ Text.quote target ++ " in workflow: " ++ Text.quote text
  | .duplicateName name => "Duplicate workflow name: " ++ Text.quote name
  | .sinkName name => "Workflow name collides with sink: " ++ Text.quote name

end WorkflowDefect

namespace RecordDefect

def message : RecordDefect → String
  | .noBraces text => "Missing braces in record: " ++ Text.quote text
  | .noEquals field => "Missing '=' in record field " ++ Text.quote field
  | .noAttribute field => "Missing attribute in record field " ++ Text.quote field
  | .duplicateAttribute tag text =>
    "Duplicate attribute " ++ Text.quote tag ++ " in record: " ++ Text.quote text
  | .badValue field => "Value is not an integer in record field " ++ Text.quote field
  | .missingAttributes tags text =>
    "Missing attributes " ++ Text.quoteList tags ++ " in record: " ++ Text.quote text

end RecordDefect

namespace FieldType

def word : FieldType → String
  | .integer => "int"
  | .string => "str"
  | .boolean => "bool"

end FieldType

namespace ConfigDefect

def message : ConfigDefect → String
  | .unknownId id => "Unknown engine config_id: " ++ id
  | .notAnObject => "Engine config must be a JSON object"
  | .missingField field => "Missing required field '" ++ field ++ "' in engine config"
  | .wrongType field type => "Field '" ++ field ++ "' must be " ++ type.word
  | .otherId requested found =>
    "config_id mismatch: requested '" ++ requested ++ "', config has '" ++ found ++ "'"
  | .emptyScale => "universe_min must be <= universe_max"
  | .blankEntry => "entry_name must be non-empty"
  | .emptySink => "accept_name and reject_name must be non-empty"
  | .equalSinks => "accept_name and reject_name must differ"
  | .foreignSinks tableAccept tableReject configAccept configReject =>
    "WorkflowTable sink names " ++ Text.quote tableAccept ++ "/" ++ Text.quote tableReject ++
      " do not match config " ++ Text.quote configAccept ++ "/" ++ Text.quote configReject

end ConfigDefect

namespace Fault

def message : Fault → String
  | .condition defect => defect.message
  | .workflow defect => defect.message
  | .record defect => defect.message
  | .unknownAttribute tag => "Unknown attribute: " ++ Text.quote tag
  | .unknownComparator symbol text =>
    "Unknown comparator " ++ Text.quote symbol ++ " in condition: " ++ Text.quote text
  | .unknownWorkflow name => "Unknown workflow: " ++ Text.quote name
  | .cyclicWorkflow path => "Cyclic workflow path: " ++ String.intercalate " -> " path
  | .numeralTooLong digits =>
    "Exceeds the limit (" ++ Numeral.write digitLimit ++
      " digits) for integer string conversion: value has " ++ Numeral.write digits ++
      " digits; use sys.set_int_max_str_digits() to increase the limit"
  | .integerTooLong =>
    "Exceeds the limit (" ++ Numeral.write digitLimit ++
      " digits) for integer string conversion; " ++
      "use sys.set_int_max_str_digits() to increase the limit"
  | .boxArity count => "DomainBox needs 4 interval lists, got " ++ Numeral.write count
  | .blockShape shape =>
    "values must have shape (N, 4), got " ++
      Text.tuple (shape.map fun (size : Nat) => Numeral.write size)
  | .gridTooLarge scale points =>
    "Universe " ++ Numeral.write scale.low ++ ".." ++ Numeral.write scale.high ++
      " too large to enumerate (" ++ Numeral.write points ++ " points)"
  | .axisTooLong => "Maximum allowed size exceeded"
  | .wordOverflow => "Integer does not fit into 64 bits"
  | .noSuchName name => "No workflow of this name: " ++ Text.quote name
  | .invalidJson => "Text is not JSON"
  | .config defect => defect.message
  | .endless path => "Workflow path never ends: " ++ String.intercalate " -> " path

end Fault

end PartSorting
