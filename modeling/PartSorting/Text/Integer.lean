import PartSorting.Fault
import PartSorting.Text.Numeral
import PartSorting.Text.Word

/-!
Integers read from the fields of a text.
-/

set_option autoImplicit false

namespace PartSorting.Text

/-- The integer that a field spells.  A field that is no numeral has the given fault; a numeral
with too many digits has one of its own. -/
def readInteger (field : List Char) (malformed : Fault) : Except Fault Int :=
  match Numeral.ofText? (dropFinalNewline field) with
  | none => .error malformed
  | some numeral =>
    if digitLimit < numeral.digits.length then
      .error (.numeralTooLong numeral.digits.length)
    else
      .ok numeral.value

end PartSorting.Text
