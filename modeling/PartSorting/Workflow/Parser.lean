import PartSorting.Condition.Parser
import PartSorting.Text.Blank
import PartSorting.Text.Fields
import PartSorting.Workflow

/-!
Workflows read from texts: a name, and in braces the rules and the fallback, separated by commas.

Blank margins do not matter.  The form of the whole is judged before its parts, and the parts from
left to right.
-/

set_option autoImplicit false

namespace PartSorting

namespace Text

def isNoBrace (c : Char) : Bool :=
  c != '\x7b' && c != '\x7d'

/-- The text before and the text inside the only pair of braces, which has to end the text. -/
def splitBraces? (text : List Char) : Option (List Char × List Char) :=
  match text.dropWhile isNoBrace with
  | '\x7b' :: rest =>
    if rest.dropWhile isNoBrace = ['\x7d'] then
      some (text.takeWhile isNoBrace, rest.takeWhile isNoBrace)
    else
      none
  | _ => none

end Text

namespace Workflow

def parseTarget (text : String) (field : List Char) : Except Fault String :=
  if Text.isWord field then
    .ok (String.ofList field)
  else
    .error (.workflow (.badTarget (String.ofList field) text))

def parseRule (text : String) (field : List Char) : Except Fault Rule :=
  match Text.fields ':' field with
  | [condition, target] => do
    let condition ← Condition.parseChars condition
    let target ← parseTarget text target
    return ⟨condition, target⟩
  | _ => .error (.workflow (.badRule (String.ofList field) text))

def parse (text : String) : Except Fault Workflow :=
  match Text.splitBraces? (Text.trim text.toList) with
  | none => .error (.workflow (.noBraces text))
  | some (name, body) =>
    if Text.isWord name then
      let fields := Text.fields ',' body
      let fallback := fields.getLastD []
      if ':' ∈ fallback then
        .error (.workflow (.noFallback text))
      else do
        let rules ← fields.dropLast.mapM (parseRule text)
        let fallback ← parseTarget text fallback
        return ⟨String.ofList name, rules, fallback⟩
    else
      .error (.workflow (.badName text))

end Workflow

end PartSorting
