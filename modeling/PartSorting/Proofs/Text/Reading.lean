import Mathlib.Data.List.TakeWhile
import PartSorting.Text.Blank
import PartSorting.Text.Fields
import PartSorting.Text.Integer

/-! # Texts that are written out and read again

Margins are trimmed off a text that has none of its own, joined fields are cut at their
separators again, and an integer is read back from its numeral.  A character of a word is neither
blank nor a separator nor a brace, so it never ends the field that it stands in. -/

set_option autoImplicit false

namespace PartSorting

namespace Text

def Padded (text line : List Char) : Prop :=
  ∃ before after, (∀ c ∈ before, isBlank c = true) ∧ (∀ c ∈ after, isBlank c = true) ∧
    line = before ++ text ++ after

theorem Padded.refl (text : List Char) : Padded text text :=
  ⟨[], [], fun _ member => absurd member List.not_mem_nil,
    fun _ member => absurd member List.not_mem_nil, (List.append_nil text).symm⟩

theorem trim_padded {text line : List Char} (padded : Padded text line)
    (first : ∀ c ∈ text.head?, isBlank c = false)
    (last : ∀ c ∈ text.getLast?, isBlank c = false) : trim line = text := by
  obtain ⟨before, after, blankBefore, blankAfter, rfl⟩ := padded
  rw [trim, List.append_assoc, List.dropWhile_append_of_pos blankBefore]
  cases text with
  | nil =>
      rw [List.nil_append, List.dropWhile_eq_nil_iff.mpr blankAfter]
      rfl
  | cons c rest =>
      have firstStays : isBlank c = false := first c rfl
      have afterReversed : ∀ d ∈ after.reverse, isBlank d = true := fun d member =>
        blankAfter d (List.mem_reverse.mp member)
      rw [List.cons_append, List.dropWhile_cons_of_neg (by simp [firstStays]),
        ← List.cons_append, List.reverse_append, List.dropWhile_append_of_pos afterReversed]
      cases reversed : (c :: rest).reverse with
      | nil => simp at reversed
      | cons d others =>
          have lastStays : isBlank d = false := by
            apply last
            rw [← List.head?_reverse, reversed]
            rfl
          rw [List.dropWhile_cons_of_neg (by simp [lastStays]), ← reversed, List.reverse_reverse]

theorem fields_append (separator : Char) (field rest : List Char) (clean : separator ∉ field) :
    fields separator (field ++ separator :: rest) = field :: fields separator rest := by
  induction field with
  | nil => simp [fields]
  | cons c field ih =>
      obtain ⟨differs, clean⟩ := not_or.mp (mt List.mem_cons.mpr clean)
      simp only [List.cons_append, fields, Ne.symm differs, if_false, ih clean]

theorem fields_of_not_mem {separator : Char} {field : List Char} (clean : separator ∉ field) :
    fields separator field = [field] := by
  induction field with
  | nil => rfl
  | cons c field ih =>
      obtain ⟨differs, clean⟩ := not_or.mp (mt List.mem_cons.mpr clean)
      simp only [fields, Ne.symm differs, if_false, ih clean]

theorem join_cons {separator : Char} {fields : List (List Char)} (notEmpty : fields ≠ [])
    (field : List Char) :
    join separator (field :: fields) = field ++ separator :: join separator fields := by
  obtain ⟨next, more, rfl⟩ := List.exists_cons_of_ne_nil notEmpty
  rfl

theorem fields_join {separator : Char} {parts : List (List Char)} (notEmpty : parts ≠ [])
    (clean : ∀ part ∈ parts, separator ∉ part) :
    fields separator (join separator parts) = parts := by
  induction parts with
  | nil => exact absurd rfl notEmpty
  | cons part parts ih =>
      obtain ⟨cleanHere, cleanLater⟩ := List.forall_mem_cons.mp clean
      cases parts with
      | nil => exact fields_of_not_mem cleanHere
      | cons next more =>
          have more := List.cons_ne_nil next more
          rw [join_cons more, fields_append _ _ _ cleanHere, ih more cleanLater]

theorem mem_join {separator c : Char} {parts : List (List Char)}
    (member : c ∈ join separator parts) : c = separator ∨ ∃ part ∈ parts, c ∈ part := by
  induction parts with
  | nil => exact absurd member List.not_mem_nil
  | cons part parts ih =>
      cases parts with
      | nil => exact .inr ⟨part, List.mem_cons_self, member⟩
      | cons next more =>
          rcases List.mem_append.mp member with here | later
          · exact .inr ⟨part, List.mem_cons_self, here⟩
          · rcases List.mem_cons.mp later with isSeparator | later
            · exact .inl isSeparator
            · rcases ih later with isSeparator | ⟨other, found, inside⟩
              · exact .inl isSeparator
              · exact .inr ⟨other, List.mem_cons_of_mem _ found, inside⟩

/-- One or more ASCII letters, digits and underscores. -/
def Word (field : List Char) : Prop :=
  field ≠ [] ∧ ∀ c ∈ field, isWordChar c = true

instance (field : List Char) : Decidable (Word field) :=
  decidable_of_iff (field ≠ [] ∧ field.all isWordChar = true)
    (and_congr Iff.rfl List.all_eq_true)

/-- A character that ends no field: no separator, no brace, and not blank. -/
def Inner (c : Char) : Prop :=
  c ≠ ',' ∧ c ≠ ':' ∧ c ≠ '\x7b' ∧ c ≠ '\x7d' ∧ isBlank c = false

instance (c : Char) : Decidable (Inner c) :=
  inferInstanceAs (Decidable (_ ∧ _))

theorem toNat_of_isWordChar {c : Char} (inWord : isWordChar c = true) :
    (0x30 ≤ c.toNat ∧ c.toNat ≤ 0x39) ∨ (0x41 ≤ c.toNat ∧ c.toNat ≤ 0x5a) ∨ c.toNat = 0x5f ∨
      (0x61 ≤ c.toNat ∧ c.toNat ≤ 0x7a) := by
  unfold isWordChar Char.isAlphanum Char.isAlpha Char.isUpper Char.isLower Char.isDigit at inWord
  simp only [Bool.or_eq_true, Bool.and_eq_true, decide_eq_true_eq, beq_iff_eq, ge_iff_le,
    UInt32.le_iff_toNat_le] at inWord
  rcases inWord with ((upper | lower) | digit) | rfl
  · exact .inr (.inl upper)
  · exact .inr (.inr (.inr lower))
  · exact .inl digit
  · exact .inr (.inr (.inl rfl))

theorem inner_of_isWordChar {c : Char} (inWord : isWordChar c = true) : Inner c := by
  have code := toNat_of_isWordChar inWord
  refine ⟨?_, ?_, ?_, ?_, ?_⟩
  iterate 4
    · rintro rfl
      revert code
      decide
  · simp only [isBlank, Bool.or_eq_false_iff, Bool.and_eq_false_iff, decide_eq_false_iff_not,
      beq_eq_false_iff_ne]
    omega

theorem isWordChar_of_isDigit {c : Char} (digit : c.isDigit = true) : isWordChar c = true := by
  simp [isWordChar, Char.isAlphanum, digit]

theorem Inner.ne_newline {c : Char} (inner : Inner c) : c ≠ '\n' := by
  rintro rfl
  exact absurd inner.2.2.2.2 (by decide)

theorem dropFinalNewline_of_inner {field : List Char} (inner : ∀ c ∈ field, Inner c) :
    dropFinalNewline field = field := by
  apply if_neg
  intro last
  exact (inner '\n' (List.mem_of_getLast? last)).ne_newline rfl

theorem Word.inner {field : List Char} (word : Word field) : ∀ c ∈ field, Inner c :=
  fun c member => inner_of_isWordChar (word.2 c member)

end Text

namespace Numeral

structure Proper (numeral : Numeral) : Prop where
  notEmpty : numeral.digits ≠ []
  digits : ∀ c ∈ numeral.digits, c.isDigit = true

theorem proper_ofInt (n : Int) : (ofInt n).Proper :=
  ⟨Nat.toDigits_ne_nil, fun _ member => Nat.isDigit_of_mem_toDigits (by decide) (by decide) member⟩

theorem Proper.inner_of_mem_text {numeral : Numeral} (proper : numeral.Proper) {c : Char}
    (member : c ∈ numeral.text) : Text.Inner c := by
  have inner : ∀ d ∈ numeral.digits, Text.Inner d := fun d isDigit =>
    Text.inner_of_isWordChar (Text.isWordChar_of_isDigit (proper.digits d isDigit))
  simp only [text] at member
  split at member
  · rcases List.mem_cons.mp member with rfl | inDigits
    · decide
    · exact inner c inDigits
  · exact inner c member

theorem ofText?_text {numeral : Numeral} (proper : numeral.Proper) :
    ofText? numeral.text = some numeral := by
  obtain ⟨negative, digits⟩ := numeral
  have wellFormed : digits ≠ [] ∧ digits.all Char.isDigit = true :=
    ⟨proper.notEmpty, List.all_eq_true.mpr proper.digits⟩
  cases negative with
  | true => simp only [text, if_true, ofText?, wellFormed, ne_eq, not_false_eq_true, and_self]
  | false =>
      obtain ⟨d, rest, rfl⟩ := List.exists_cons_of_ne_nil proper.notEmpty
      -- The first character is a digit, so it is not read as a sign.
      have noSign : d ≠ '-' := by
        rintro rfl
        have isDigit := proper.digits '-' List.mem_cons_self
        contradiction
      simp only [text, Bool.false_eq_true, if_false, ofText?]
      split
      · rename_i unsigned
        exact absurd (List.cons.inj unsigned).1 noSign
      · rw [if_pos wellFormed]

end Numeral

end PartSorting
