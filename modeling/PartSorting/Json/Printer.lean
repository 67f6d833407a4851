import PartSorting.Json
import PartSorting.Text.Numeral
import PartSorting.Text.Quoted

/-!
JSON values written as texts.

Texts are ASCII: quotation marks and backslashes are escaped with a backslash, all characters that
are not printable ASCII by their UTF-16 units.  A decimal is written as its digits and its
exponent.
-/

set_option autoImplicit false

namespace PartSorting

namespace Decimal

def text (decimal : Decimal) : String :=
  (if decimal.negative then "-" else "") ++ Numeral.write decimal.digits ++ "e" ++
    Numeral.write decimal.exponent

end Decimal

namespace Json

/-- A UTF-16 unit as it stands in a string. -/
def unitText (unit : Nat) : List Char :=
  '\\' :: 'u' :: Text.hexDigits 4 unit

/-- One character as it stands in a string. -/
def escape (c : Char) : List Char :=
  let code := c.toNat
  if c = '"' ∨ c = '\\' then ['\\', c]
  else if 0x20 ≤ code ∧ code < 0x7f then [c]
  else if code < 0x10000 then unitText code
  else
    unitText (0xd800 + (code - 0x10000) / 0x400) ++ unitText (0xdc00 + (code - 0x10000) % 0x400)

def stringText (value : String) : String :=
  "\"" ++ String.ofList (value.toList.flatMap escape) ++ "\""

mutual

def text : Json → String
  | .null => "null"
  | .bool true => "true"
  | .bool false => "false"
  | .integer value => Numeral.write value
  | .decimal value => value.text
  | .notANumber => "NaN"
  | .infinity false => "Infinity"
  | .infinity true => "-Infinity"
  | .string value => stringText value
  | .array items => "[" ++ String.intercalate "," (itemTexts items) ++ "]"
  | .object members => "\x7b" ++ String.intercalate "," (memberTexts members) ++ "\x7d"

def itemTexts : List Json → List String
  | [] => []
  | item :: items => text item :: itemTexts items

def memberTexts : List (String × Json) → List String
  | [] => []
  | (key, value) :: members => (stringText key ++ ":" ++ text value) :: memberTexts members

end

end Json

end PartSorting
