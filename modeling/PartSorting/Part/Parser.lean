import PartSorting.Condition.Parser
import PartSorting.Text.Blank
import PartSorting.Text.Fields

/-!
Parts read from records: in braces one field for each attribute, in any order, separated by commas.

A field is the letter of an attribute, an equals sign and a numeral.  Fields are judged from left
to right, and missing attributes only after all fields.
-/

set_option autoImplicit false

namespace PartSorting.Part

/-- The text between an opening brace at the start and a closing brace at the end. -/
def unbrace? (text : List Char) : Option (List Char) :=
  match text with
  | '\x7b' :: rest => if rest.getLast? = some '\x7d' then some rest.dropLast else none
  | _ => none

/-- The ratings known so far, with the one that a field of the record gives. -/
def readField (text : String) (known : PerAttribute (Option Int)) (field : List Char) :
    Except Fault (PerAttribute (Option Int)) :=
  match Text.cutAt? '=' field with
  | none => .error (.record (.noEquals (String.ofList field)))
  | some ([], _) => .error (.record (.noAttribute (String.ofList field)))
  | some (tag, numeral) => do
    let i ← Attribute.parse tag
    if (known.get i).isSome then
      .error (.record (.duplicateAttribute (String.ofList tag) text))
    else do
      let value ← Text.readInteger numeral (.record (.badValue (String.ofList field)))
      return known.set i (some value)

/-- The part whose ratings are all known. -/
def ofKnown? (known : PerAttribute (Option Int)) : Option Part :=
  match known with
  | ⟨some x, some m, some a, some s⟩ => some ⟨x, m, a, s⟩
  | _ => none

def missing (known : PerAttribute (Option Int)) : List String :=
  (Attribute.all.filter fun i => (known.get i).isNone).map fun i => String.ofList [i.letter]

def parse (text : String) : Except Fault Part :=
  match unbrace? (Text.trim text.toList) with
  | none => .error (.record (.noBraces text))
  | some body => do
    let known ← (Text.fields ',' body).foldlM (readField text) (.const none)
    match ofKnown? known with
    | some part => .ok part
    | none => .error (.record (.missingAttributes (missing known) text))

end PartSorting.Part
