import PartSorting.Text.Printable

/-!
Quoted texts, as messages show them.

The mark is a single quote, unless the text has a single quote and no double quote.  A backslash
and the mark are escaped with a backslash, line feed, carriage return and tab have letters of
their own, and any other unprintable character is written by its code in lower-case hexadecimal
digits: two after `\x`, four after `\u` or eight after `\U`, the fewest that hold it.
-/

set_option autoImplicit false

namespace PartSorting.Text

/-- The last `width` hexadecimal digits of a number. -/
def hexDigits : Nat → Nat → List Char
  | 0, _ => []
  | width + 1, n => hexDigits width (n / 16) ++ [Nat.digitChar (n % 16)]

def quoteMark (text : List Char) : Char :=
  if text.contains '\'' && !text.contains '"' then '"' else '\''

def escape (mark c : Char) : List Char :=
  if c = '\\' ∨ c = mark then ['\\', c]
  else if c = '\n' then ['\\', 'n']
  else if c = '\r' then ['\\', 'r']
  else if c = '\t' then ['\\', 't']
  else if isPrintable c then [c]
  else if c.toNat < 0x100 then '\\' :: 'x' :: hexDigits 2 c.toNat
  else if c.toNat < 0x10000 then '\\' :: 'u' :: hexDigits 4 c.toNat
  else '\\' :: 'U' :: hexDigits 8 c.toNat

def quote (text : String) : String :=
  let mark := quoteMark text.toList
  String.ofList (mark :: text.toList.flatMap (escape mark) ++ [mark])

def quoteList (texts : List String) : String :=
  "[" ++ String.intercalate ", " (texts.map quote) ++ "]"

/-- Numbers between parentheses; a single one is followed by a comma. -/
def tuple (numbers : List String) : String :=
  match numbers with
  | [single] => "(" ++ single ++ ",)"
  | _ => "(" ++ String.intercalate ", " numbers ++ ")"

end PartSorting.Text
