/-!
Words: the names of workflows and targets in a text.

A word consists of ASCII letters, digits and underscores.  A field may end in one newline, which
does not count towards its form.
-/

set_option autoImplicit false

namespace PartSorting.Text

/-- The field without a newline at its very end. -/
def dropFinalNewline (field : List Char) : List Char :=
  if field.getLast? = some '\n' then field.dropLast else field

def isWordChar (c : Char) : Bool :=
  c.isAlphanum || c == '_'

def isWord (field : List Char) : Bool :=
  let word := dropFinalNewline field
  !word.isEmpty && word.all isWordChar

end PartSorting.Text
