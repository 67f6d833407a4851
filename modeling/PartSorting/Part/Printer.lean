import PartSorting.Part
import PartSorting.Text.Fields
import PartSorting.Text.Numeral

/-!
Parts written as records.
-/

set_option autoImplicit false

namespace PartSorting.Part

/-- The field of a record that gives the rating of an attribute. -/
def field (part : Part) (i : Attribute) : List Char :=
  i.letter :: '=' :: (Numeral.ofInt (part.get i)).text

/-- The record of a part: in braces one field for each attribute. -/
def chars (part : Part) : List Char :=
  '\x7b' :: Text.join ',' (Attribute.all.map (field part)) ++ ['\x7d']

def text (part : Part) : String :=
  String.ofList (chars part)

end PartSorting.Part
