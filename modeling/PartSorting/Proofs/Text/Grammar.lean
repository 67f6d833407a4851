import Mathlib.Data.List.Basic
import PartSorting.Proofs.Text.Reading

/-! # What the fields of a text say

Margins, separated fields, names and numerals are described without the functions that read them,
and each of these functions is shown to accept what is described and nothing else.  A name and a
numeral may be followed by one newline, which belongs to the field. -/

set_option autoImplicit false

namespace PartSorting

namespace Text

structure Trimmed (text line : List Char) : Prop where
  padded : Padded text line
  first : ∀ c ∈ text.head?, isBlank c = false
  last : ∀ c ∈ text.getLast?, isBlank c = false

theorem isBlank_head_dropWhile {text : List Char} {c : Char}
    (first : c ∈ (text.dropWhile isBlank).head?) : isBlank c = false := by
  have stops := List.head?_dropWhile_not isBlank text
  rw [Option.mem_def.mp first] at stops
  simpa using stops

theorem dropWhile_eq_trim_append (line : List Char) :
    ∃ after, (∀ c ∈ after, isBlank c = true) ∧ line.dropWhile isBlank = trim line ++ after := by
  refine ⟨((line.dropWhile isBlank).reverse.takeWhile isBlank).reverse, ?_, ?_⟩
  · intro c member
    exact List.mem_takeWhile_imp (List.mem_reverse.mp member)
  · rw [trim, ← List.reverse_append, List.takeWhile_append_dropWhile, List.reverse_reverse]

theorem trimmed_trim (line : List Char) : Trimmed (trim line) line := by
  obtain ⟨after, blankAfter, behind⟩ := dropWhile_eq_trim_append line
  refine ⟨⟨line.takeWhile isBlank, after, fun _ => List.mem_takeWhile_imp, blankAfter, ?_⟩, ?_, ?_⟩
  · rw [List.append_assoc, ← behind, List.takeWhile_append_dropWhile]
  · intro c first
    have head : c ∈ (line.dropWhile isBlank).head? := by
      rw [behind]
      exact List.mem_head?_append_of_mem_head? first
    exact isBlank_head_dropWhile head
  · intro c last
    rw [trim, List.getLast?_reverse] at last
    exact isBlank_head_dropWhile last

theorem trimmed_iff {text line : List Char} : Trimmed text line ↔ trim line = text := by
  constructor
  · intro trimmed
    exact trim_padded trimmed.padded trimmed.first trimmed.last
  · rintro rfl
    exact trimmed_trim line

theorem trim_trim (line : List Char) : trim (trim line) = trim line :=
  trimmed_iff.mp ⟨.refl _, (trimmed_trim line).first, (trimmed_trim line).last⟩

theorem trim_eq_nil_iff {line : List Char} : trim line = [] ↔ ∀ c ∈ line, isBlank c = true := by
  rw [← trimmed_iff]
  constructor
  · rintro ⟨⟨before, after, blankBefore, blankAfter, rfl⟩, _, _⟩ c member
    rw [List.append_nil] at member
    exact (List.mem_append.mp member).elim (blankBefore c) (blankAfter c)
  · intro blank
    exact ⟨⟨line, [], blank, by simp, by simp⟩, by simp, by simp⟩

theorem not_mem_of_mem_fields {separator : Char} {text field : List Char}
    (member : field ∈ fields separator text) : separator ∉ field := by
  induction text generalizing field with
  | nil =>
      obtain rfl := List.mem_singleton.mp member
      exact List.not_mem_nil
  | cons c rest ih =>
      by_cases cut : c = separator
      · simp only [fields, cut, if_true, List.mem_cons] at member
        rcases member with rfl | later
        · exact List.not_mem_nil
        · exact ih (cut ▸ later)
      · cases rests : fields separator rest with
        | nil => exact absurd rests (fields_ne_nil separator rest)
        | cons first more =>
            simp only [fields, cut, if_false, rests, List.mem_cons] at member
            rw [rests] at ih
            rcases member with rfl | later
            · intro inside
              rcases List.mem_cons.mp inside with same | inside
              · exact cut same.symm
              · exact ih List.mem_cons_self inside
            · exact ih (List.mem_cons_of_mem first later)

/-- The fields of a text are the only texts without the separator that it joins. -/
theorem fields_eq_iff {separator : Char} {text : List Char} {parts : List (List Char)} :
    fields separator text = parts ↔
      parts ≠ [] ∧ (∀ part ∈ parts, separator ∉ part) ∧ text = join separator parts := by
  constructor
  · rintro rfl
    exact ⟨fields_ne_nil separator text, fun _ => not_mem_of_mem_fields,
      (join_fields separator text).symm⟩
  · rintro ⟨notEmpty, clean, rfl⟩
    exact fields_join notEmpty clean

theorem fields_eq_pair_iff {separator : Char} {text first second : List Char} :
    fields separator text = [first, second] ↔
      text = first ++ separator :: second ∧ text.count separator = 1 := by
  rw [fields_eq_iff, List.forall_mem_cons, List.forall_mem_singleton]
  simp only [join, ne_eq, List.cons_ne_nil, not_false_eq_true, true_and]
  rw [and_comm, and_congr_right_iff]
  rintro rfl
  rw [List.count_append, List.count_cons_self, ← List.count_eq_zero, ← List.count_eq_zero]
  omega

theorem cutAt?_append {separator : Char} {before : List Char} (clean : separator ∉ before)
    (after : List Char) :
    cutAt? separator (before ++ separator :: after) = some (before, after) := by
  induction before with
  | nil => simp [cutAt?]
  | cons c before ih =>
      obtain ⟨differs, clean⟩ := not_or.mp (mt List.mem_cons.mpr clean)
      simp only [List.cons_append, cutAt?, Ne.symm differs, if_false, ih clean, Option.map_some]

theorem cutAt?_eq_none_iff {separator : Char} {text : List Char} :
    cutAt? separator text = none ↔ separator ∉ text := by
  induction text with
  | nil => simp [cutAt?]
  | cons c rest ih =>
      by_cases cut : c = separator
      · simp [cutAt?, cut]
      · simp only [cutAt?, cut, if_false, Option.map_eq_none_iff, ih, List.mem_cons,
          Ne.symm cut, false_or]

theorem cutAt?_eq_some_iff {separator : Char} {text before after : List Char} :
    cutAt? separator text = some (before, after) ↔
      text = before ++ separator :: after ∧ separator ∉ before := by
  constructor
  · intro cut
    have present : separator ∈ text := by
      by_contra absent
      rw [cutAt?_eq_none_iff.mpr absent] at cut
      contradiction
    obtain ⟨first, rest, rfl, clean⟩ := List.eq_append_cons_of_mem present
    rw [cutAt?_append clean] at cut
    cases cut
    exact ⟨rfl, clean⟩
  · rintro ⟨rfl, clean⟩
    exact cutAt?_append clean after

def UpToNewline (text field : List Char) : Prop :=
  field = text ∨ field = text ++ ['\n']

theorem upToNewline_dropFinalNewline (field : List Char) :
    UpToNewline (dropFinalNewline field) field := by
  by_cases newline : field.getLast? = some '\n'
  · rw [dropFinalNewline, if_pos newline]
    exact .inr (List.dropLast_append_getLast? _ newline).symm
  · rw [dropFinalNewline, if_neg newline]
    exact .inl rfl

theorem UpToNewline.dropFinalNewline_eq {text field : List Char} (spelt : UpToNewline text field)
    (inner : ∀ c ∈ text, Inner c) : dropFinalNewline field = text := by
  rcases spelt with rfl | rfl
  · exact dropFinalNewline_of_inner inner
  · rw [dropFinalNewline, if_pos (List.getLast?_concat ..), List.dropLast_concat]

/-- A character that separates nothing; a newline is one. -/
def Ordinary (c : Char) : Prop :=
  c ≠ ',' ∧ c ≠ ':' ∧ c ≠ '\x7b' ∧ c ≠ '\x7d'

instance (c : Char) : Decidable (Ordinary c) :=
  inferInstanceAs (Decidable (_ ∧ _))

theorem UpToNewline.ordinary {text field : List Char} (spelt : UpToNewline text field)
    (inner : ∀ c ∈ text, Inner c) : ∀ c ∈ field, Ordinary c := by
  have ordinary : ∀ c ∈ text, Ordinary c := by
    intro c member
    obtain ⟨notComma, notColon, notOpen, notClose, _⟩ := inner c member
    exact ⟨notComma, notColon, notOpen, notClose⟩
  rcases spelt with rfl | rfl
  · exact ordinary
  · intro c member
    rcases List.mem_append.mp member with inText | isNewline
    · exact ordinary c inText
    · obtain rfl := List.mem_singleton.mp isNewline
      decide

theorem not_mem_of_ordinary {separator : Char} (separates : ¬Ordinary separator)
    {field : List Char} (ordinary : ∀ c ∈ field, Ordinary c) : separator ∉ field :=
  fun member => separates (ordinary separator member)

def IsName (field : List Char) : Prop :=
  ∃ word, Word word ∧ UpToNewline word field

theorem Word.isName {field : List Char} (word : Word field) : IsName field :=
  ⟨field, word, .inl rfl⟩

theorem isWord_iff {field : List Char} : isWord field = true ↔ IsName field := by
  constructor
  · intro isWord
    refine ⟨dropFinalNewline field, ?_, upToNewline_dropFinalNewline field⟩
    simpa [Text.isWord, Word] using isWord
  · rintro ⟨word, isWord, spelt⟩
    have same := spelt.dropFinalNewline_eq isWord.inner
    simpa [Text.isWord, same, Word] using isWord

theorem IsName.ordinary {field : List Char} (named : IsName field) : ∀ c ∈ field, Ordinary c := by
  obtain ⟨word, isWord, spelt⟩ := named
  exact spelt.ordinary isWord.inner

end Text

namespace Numeral

theorem ofText?_eq_some_iff {text : List Char} {numeral : Numeral} :
    ofText? text = some numeral ↔ numeral.Proper ∧ text = numeral.text := by
  constructor
  · intro read
    unfold ofText? at read
    split at read
    · obtain ⟨wellFormed, same⟩ := Option.ite_none_right_eq_some.mp read
      obtain rfl := Option.some.inj same
      exact ⟨⟨wellFormed.1, List.all_eq_true.mp wellFormed.2⟩, rfl⟩
    · obtain ⟨wellFormed, same⟩ := Option.ite_none_right_eq_some.mp read
      obtain rfl := Option.some.inj same
      exact ⟨⟨wellFormed.1, List.all_eq_true.mp wellFormed.2⟩, rfl⟩
  · rintro ⟨proper, rfl⟩
    exact ofText?_text proper

structure SpeltBy (numeral : Numeral) (field : List Char) : Prop where
  proper : numeral.Proper
  text : Text.UpToNewline numeral.text field

theorem ofText?_dropFinalNewline_eq_some_iff {field : List Char} {numeral : Numeral} :
    ofText? (Text.dropFinalNewline field) = some numeral ↔ numeral.SpeltBy field := by
  rw [ofText?_eq_some_iff]
  constructor
  · rintro ⟨proper, same⟩
    exact ⟨proper, same ▸ Text.upToNewline_dropFinalNewline field⟩
  · rintro ⟨proper, spelt⟩
    exact ⟨proper, spelt.dropFinalNewline_eq fun _ => proper.inner_of_mem_text⟩

end Numeral

inductive Fault.TooLong : Fault → Prop where
  | intro (digits : Nat) (long : digitLimit < digits) : TooLong (.numeralTooLong digits)

namespace Text

/-- The field is a numeral that is short enough to be read, and the integer is its value. -/
def Denotes (field : List Char) (n : Int) : Prop :=
  ∃ numeral : Numeral, numeral.SpeltBy field ∧ numeral.digits.length ≤ digitLimit ∧
    n = numeral.value

theorem denotes_ofInt {n : Int} (written : Writable n) : Denotes (Numeral.ofInt n).text n :=
  ⟨.ofInt n, ⟨Numeral.proper_ofInt n, .inl rfl⟩, (writable_iff n).mp written,
    (Numeral.value_ofInt n).symm⟩

theorem Denotes.ordinary {field : List Char} {n : Int} (denoted : Denotes field n) :
    ∀ c ∈ field, Ordinary c := by
  obtain ⟨numeral, spelt, _⟩ := denoted
  exact spelt.text.ordinary fun _ => spelt.proper.inner_of_mem_text

inductive NumeralDefect (malformed : Fault) (field : List Char) : Fault → Prop where
  | malformed (noNumeral : ∀ numeral : Numeral, ¬numeral.SpeltBy field) :
      NumeralDefect malformed field malformed
  | tooLong (numeral : Numeral) (spelt : numeral.SpeltBy field)
      (long : digitLimit < numeral.digits.length) :
      NumeralDefect malformed field (.numeralTooLong numeral.digits.length)

theorem NumeralDefect.cases {malformed fault : Fault} {field : List Char}
    (defect : NumeralDefect malformed field fault) : fault = malformed ∨ fault.TooLong := by
  cases defect with
  | malformed _ => exact .inl rfl
  | tooLong numeral _ long => exact .inr (.intro _ long)

/-- There are three readings of a field: it is no numeral, or one that is too long, or one that is
short enough. -/
theorem readInteger_cases (field : List Char) (malformed : Fault) :
    ((∀ numeral : Numeral, ¬numeral.SpeltBy field) ∧
      readInteger field malformed = .error malformed) ∨
    ∃ numeral : Numeral, numeral.SpeltBy field ∧
      readInteger field malformed =
        if digitLimit < numeral.digits.length then .error (.numeralTooLong numeral.digits.length)
        else .ok numeral.value := by
  cases read : Numeral.ofText? (dropFinalNewline field) with
  | none =>
      refine .inl ⟨fun numeral spelt => ?_, by simp only [readInteger, read]⟩
      rw [Numeral.ofText?_dropFinalNewline_eq_some_iff.mpr spelt] at read
      contradiction
  | some numeral =>
      have spelt := Numeral.ofText?_dropFinalNewline_eq_some_iff.mp read
      exact .inr ⟨numeral, spelt, by simp only [readInteger, read]⟩

end Text

theorem Numeral.SpeltBy.unique {numeral other : Numeral} {field : List Char}
    (spelt : numeral.SpeltBy field) (again : other.SpeltBy field) : numeral = other := by
  have read := ofText?_dropFinalNewline_eq_some_iff.mpr spelt
  rw [ofText?_dropFinalNewline_eq_some_iff.mpr again] at read
  exact (Option.some.inj read).symm

namespace Text

theorem readInteger_eq_ok_iff {field : List Char} {malformed : Fault} {n : Int} :
    readInteger field malformed = .ok n ↔ Denotes field n := by
  constructor
  · intro succeeded
    obtain ⟨_, failed⟩ | ⟨numeral, spelt, result⟩ := readInteger_cases field malformed
    · rw [failed] at succeeded
      contradiction
    · rw [result] at succeeded
      split at succeeded
      · contradiction
      · rename_i short
        exact ⟨numeral, spelt, Nat.not_lt.mp short, (Except.ok.inj succeeded).symm⟩
  · rintro ⟨numeral, spelt, short, rfl⟩
    obtain ⟨noNumeral, _⟩ | ⟨other, again, result⟩ := readInteger_cases field malformed
    · exact absurd spelt (noNumeral numeral)
    · obtain rfl := spelt.unique again
      rw [result, if_neg (Nat.not_lt.mpr short)]

theorem readInteger_eq_error_iff {field : List Char} {malformed fault : Fault} :
    readInteger field malformed = .error fault ↔ NumeralDefect malformed field fault := by
  constructor
  · intro failed
    obtain ⟨noNumeral, result⟩ | ⟨numeral, spelt, result⟩ := readInteger_cases field malformed
    · obtain rfl := Except.error.inj (result.symm.trans failed)
      exact .malformed noNumeral
    · rw [result] at failed
      split at failed
      · rename_i long
        obtain rfl := Except.error.inj failed
        exact .tooLong numeral spelt long
      · contradiction
  · intro defect
    obtain ⟨noNumeral, result⟩ | ⟨numeral, spelt, result⟩ := readInteger_cases field malformed
    · cases defect with
      | malformed _ => exact result
      | tooLong numeral spelt _ => exact absurd spelt (noNumeral numeral)
    · cases defect with
      | malformed noNumeral => exact absurd spelt (noNumeral numeral)
      | tooLong other again long =>
          obtain rfl := spelt.unique again
          rw [result, if_pos long]

theorem denotes_or_defect (field : List Char) (malformed : Fault) :
    (∃ n, Denotes field n) ∨ ∃ fault, NumeralDefect malformed field fault := by
  cases read : readInteger field malformed with
  | ok n => exact .inl ⟨n, readInteger_eq_ok_iff.mp read⟩
  | error fault => exact .inr ⟨fault, readInteger_eq_error_iff.mp read⟩

end Text

end PartSorting
