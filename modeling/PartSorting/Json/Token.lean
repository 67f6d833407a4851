import PartSorting.Json
import PartSorting.Text.Numeral

/-!
The tokens of a JSON text.

Blanks are spaces, tabs and line ends.  A number is as long as possible, without leading zeros;
an integer with too many digits becomes a token of its own.  Where no token begins, the list ends
with the token `invalid`.
-/

set_option autoImplicit false

namespace PartSorting.Json

inductive Token where
  | openArray
  | closeArray
  | openObject
  | closeObject
  | comma
  | colon
  | string (value : String)
  /-- A literal or a number. -/
  | scalar (value : Json)
  /-- An integer with more digits than are read. -/
  | tooLong (digits : Nat)
  | invalid

namespace Token

def hexValue? (c : Char) : Option Nat :=
  if '0' ≤ c ∧ c ≤ '9' then some (c.toNat - '0'.toNat)
  else if 'a' ≤ c ∧ c ≤ 'f' then some (c.toNat - 'a'.toNat + 10)
  else if 'A' ≤ c ∧ c ≤ 'F' then some (c.toNat - 'A'.toNat + 10)
  else none

def codeUnit? (a b c d : Char) : Option Nat := do
  let a ← hexValue? a
  let b ← hexValue? b
  let c ← hexValue? c
  let d ← hexValue? d
  return ((a * 16 + b) * 16 + c) * 16 + d

/-- The character that a letter after a backslash stands for. -/
def escaped? : Char → Option Char
  | '"' => some '"'
  | '\\' => some '\\'
  | '/' => some '/'
  | 'b' => some '\x08'
  | 'f' => some '\x0c'
  | 'n' => some '\n'
  | 'r' => some '\r'
  | 't' => some '\t'
  | _ => none

/-- The codes inside a string up to its closing quotation mark, and the text after it. -/
def stringCodes? : List Char → Option (List Nat × List Char)
  | [] => none
  | '"' :: rest => some ([], rest)
  | '\\' :: 'u' :: a :: b :: c :: d :: rest => do
    let code ← codeUnit? a b c d
    let (codes, rest) ← stringCodes? rest
    return (code :: codes, rest)
  | '\\' :: letter :: rest => do
    let c ← escaped? letter
    let (codes, rest) ← stringCodes? rest
    return (c.toNat :: codes, rest)
  | c :: rest =>
    if c.toNat < 0x20 ∨ c = '\\' then
      none
    else do
      let (codes, rest) ← stringCodes? rest
      return (c.toNat :: codes, rest)

/-- The characters of a list of codes.  A high and a low surrogate make one character together;
a surrogate that stands alone becomes the replacement character. -/
def charsOfCodes : List Nat → List Char
  | [] => []
  | [code] => [if code.isValidChar then Char.ofNat code else '\ufffd']
  | high :: low :: rest =>
    if 0xd800 ≤ high ∧ high < 0xdc00 ∧ 0xdc00 ≤ low ∧ low < 0xe000 then
      Char.ofNat (0x10000 + (high - 0xd800) * 0x400 + (low - 0xdc00)) :: charsOfCodes rest
    else
      (if high.isValidChar then Char.ofNat high else '\ufffd') :: charsOfCodes (low :: rest)

/-- The digits of the whole part of a number: a single zero, or no zero at the front. -/
def wholeDigits : List Char → List Char
  | '0' :: _ => ['0']
  | text => text.takeWhile Char.isDigit

/-- The digits after a point, if a point with digits follows. -/
def fractionDigits : List Char → List Char
  | '.' :: rest => rest.takeWhile Char.isDigit
  | _ => []

/-- The sign and the digits of an exponent with the number of characters they take, if an exponent
follows. -/
def exponent? : List Char → Option (Bool × List Char × Nat)
  | mark :: rest =>
    if mark = 'e' ∨ mark = 'E' then
      let (negative, digits, taken) :=
        match rest with
        | '-' :: digits => (true, digits.takeWhile Char.isDigit, 2)
        | '+' :: digits => (false, digits.takeWhile Char.isDigit, 2)
        | digits => (false, digits.takeWhile Char.isDigit, 1)
      if digits = [] then none else some (negative, digits, taken + digits.length)
    else
      none
  | [] => none

/-- The number token at the front of a text that has no sign, and the text after it. -/
def unsigned? (negative : Bool) (text : List Char) : Option (Token × List Char) :=
  let whole := wholeDigits text
  if whole = [] then
    none
  else
    let rest := text.drop whole.length
    let fraction := fractionDigits rest
    let rest := if fraction = [] then rest else rest.drop (fraction.length + 1)
    match fraction, exponent? rest with
    | [], none =>
      let token :=
        if digitLimit < whole.length then
          tooLong whole.length
        else
          scalar (.integer (Numeral.value ⟨negative, whole⟩))
      some (token, rest)
    | _, none =>
      let digits := Nat.ofDigitChars 10 (whole ++ fraction) 0
      some (scalar (.decimal ⟨negative, digits, -(fraction.length : Int)⟩), rest)
    | _, some (below, exponent, taken) =>
      let digits := Nat.ofDigitChars 10 (whole ++ fraction) 0
      let power := Numeral.value ⟨below, exponent⟩
      some (scalar (.decimal ⟨negative, digits, power - fraction.length⟩), rest.drop taken)

def literals : List (List Char × Json) :=
  [("null".toList, .null), ("true".toList, .bool true), ("false".toList, .bool false),
    ("NaN".toList, .notANumber), ("Infinity".toList, .infinity false),
    ("-Infinity".toList, .infinity true)]

def literal? (text : List Char) : Option (Token × List Char) :=
  (literals.find? fun (word, _) => word.isPrefixOf text).map fun (word, value) =>
    (scalar value, text.drop word.length)

/-- The token at the front of a text that does not begin with a blank, and the text after it. -/
def next? (text : List Char) : Option (Token × List Char) :=
  match text with
  | '[' :: rest => some (openArray, rest)
  | ']' :: rest => some (closeArray, rest)
  | '\x7b' :: rest => some (openObject, rest)
  | '\x7d' :: rest => some (closeObject, rest)
  | ',' :: rest => some (comma, rest)
  | ':' :: rest => some (colon, rest)
  | '"' :: rest =>
    (stringCodes? rest).map fun (codes, rest) =>
      (string (String.ofList (charsOfCodes codes)), rest)
  | _ =>
    match literal? text with
    | some found => some found
    | none =>
      match text with
      | '-' :: rest => unsigned? true rest
      | _ => unsigned? false text

def isGap (c : Char) : Bool :=
  c == ' ' || c == '\t' || c == '\n' || c == '\r'

def scanBounded : Nat → List Char → List Token
  | 0, _ => []
  | bound + 1, text =>
    match text.dropWhile isGap with
    | [] => []
    | c :: rest =>
      match next? (c :: rest) with
      | none => [invalid]
      | some (token, rest) => token :: scanBounded bound rest

/-- The tokens of a text; each takes at least one character. -/
def scan (text : List Char) : List Token :=
  scanBounded text.length text

end Token

end PartSorting.Json
