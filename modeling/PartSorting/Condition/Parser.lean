import PartSorting.Condition
import PartSorting.Text.Integer

/-!
Conditions read from texts: the letter of an attribute, a sign, and a numeral.

The first character decides about the attribute before anything is said about the rest.
-/

set_option autoImplicit false

namespace PartSorting

namespace Attribute

def parse (text : List Char) : Except Fault Attribute :=
  match ofText? text with
  | some i => .ok i
  | none => .error (.unknownAttribute (String.ofList text))

end Attribute

namespace Condition

def parseChars (text : List Char) : Except Fault Condition :=
  match text with
  | [] => .error (.condition .empty)
  | letter :: rest => do
    let attr ← Attribute.parse [letter]
    match rest with
    | [] => .error (.condition (.noComparator (String.ofList text)))
    | sign :: numeral =>
      match Comparator.ofSign? sign with
      | none => .error (.unknownComparator (String.ofList [sign]) (String.ofList text))
      | some comparator => do
        let threshold ← Text.readInteger numeral (.condition (.badThreshold (String.ofList text)))
        return ⟨attr, comparator, threshold⟩

def parse (text : String) : Except Fault Condition :=
  parseChars text.toList

end Condition

end PartSorting
