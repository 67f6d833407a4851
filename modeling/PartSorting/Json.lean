/-!
JSON values as configuration files hold them.

Integers and decimals are told apart: a number written with a point or an exponent is a decimal,
whatever its value.  A decimal keeps the digits and the exponent that were written.
-/

set_option autoImplicit false

namespace PartSorting

/-- A decimal number: the digits times a power of ten. -/
structure Decimal where
  negative : Bool
  digits : Nat
  exponent : Int
  deriving DecidableEq

/-- A JSON value; the members of an object are in the order of the text. -/
inductive Json where
  | null
  | bool (value : Bool)
  | integer (value : Int)
  | decimal (value : Decimal)
  | notANumber
  | infinity (negative : Bool)
  | string (value : String)
  | array (items : List Json)
  | object (members : List (String × Json))

namespace Json

/-- The value of a member of an object; the last one counts if a key is repeated. -/
def member? (members : List (String × Json)) (key : String) : Option Json :=
  members.reverse.lookup key

end Json

end PartSorting
