/-!
Decimal numerals and their length limit.

A numeral is an optional minus sign followed by decimal digits, leading zeros allowed.  Neither
reading nor writing handles more than `digitLimit` digits; the sign does not count, a leading zero
does.  `value_ofInt` says that an integer is the value of the numeral written for it, and
`writable_iff` that the limit on written numerals is a bound on the magnitude.
-/

set_option autoImplicit false

namespace PartSorting

/-- The largest number of digits of a numeral that is read or written. -/
def digitLimit : Nat := 4300

structure Numeral where
  negative : Bool
  digits : List Char

namespace Numeral

/-- The numeral that a text spells, if the text is one. -/
def ofText? (text : List Char) : Option Numeral :=
  let numeral : Numeral :=
    match text with
    | '-' :: digits => ⟨true, digits⟩
    | digits => ⟨false, digits⟩
  if numeral.digits ≠ [] ∧ numeral.digits.all Char.isDigit then some numeral else none

def value (numeral : Numeral) : Int :=
  let magnitude : Int := Nat.ofDigitChars 10 numeral.digits 0
  if numeral.negative then -magnitude else magnitude

def ofInt (n : Int) : Numeral :=
  ⟨decide (n < 0), Nat.toDigits 10 n.natAbs⟩

def text (numeral : Numeral) : List Char :=
  if numeral.negative then '-' :: numeral.digits else numeral.digits

def write (n : Int) : String :=
  String.ofList (ofInt n).text

/-- The length of the numeral of an integer is a bound on the magnitude. -/
theorem length_digits_le_iff (n : Int) {limit : Nat} (positive : 0 < limit) :
    (ofInt n).digits.length ≤ limit ↔ n.natAbs < Nat.pow 10 limit :=
  Nat.length_toDigits_le_iff (by decide) positive

theorem value_ofInt (n : Int) : (ofInt n).value = n := by
  by_cases negative : n < 0
  · simp only [value, ofInt, negative, decide_true, if_true, Nat.ofDigitChars_ten_toDigits]
    omega
  · simp only [value, ofInt, negative, decide_false, Nat.ofDigitChars_ten_toDigits]
    simp
    omega

end Numeral

/-- The least number that has too many digits to be written. -/
def outsize : Nat :=
  Nat.pow 10 digitLimit

/-- Whether an integer has few enough digits to be written. -/
def Writable (n : Int) : Prop :=
  n.natAbs < outsize

instance (n : Int) : Decidable (Writable n) :=
  inferInstanceAs (Decidable (n.natAbs < outsize))

theorem not_writable_outsize : ¬Writable outsize := by
  decide +kernel

/-- Between two integers that can be written there are no others. -/
theorem Writable.of_between {low n high : Int} (lowWritten : Writable low)
    (highWritten : Writable high) (above : low ≤ n) (below : n ≤ high) : Writable n := by
  simp only [Writable] at *
  omega

/-- An integer can be written exactly if its numeral is within the limit. -/
theorem writable_iff (n : Int) :
    Writable n ↔ (Numeral.ofInt n).digits.length ≤ digitLimit := by
  have positive : 0 < digitLimit := by decide
  unfold Writable outsize
  rw [Numeral.length_digits_le_iff n positive]

end PartSorting
