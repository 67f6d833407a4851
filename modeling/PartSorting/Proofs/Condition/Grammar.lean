import PartSorting.Condition.Parser
import PartSorting.Proofs.Outcome
import PartSorting.Proofs.Text.Grammar

/-! # The grammar of conditions

A condition is the letter of an attribute, a sign and a numeral.  Every other text has a first
defect, and the order in which the defects of a condition count is the order of its characters. -/

set_option autoImplicit false

namespace PartSorting

namespace Attribute

theorem ofText?_eq_some_iff {text : List Char} {i : Attribute} :
    ofText? text = some i ↔ text = [i.letter] := by
  constructor
  · intro found
    unfold ofText? at found
    split at found <;> cases found <;> rfl
  · rintro rfl
    exact ofText?_letter i

theorem parse_eq_ok_iff {text : List Char} {i : Attribute} :
    parse text = .ok i ↔ text = [i.letter] := by
  rw [← ofText?_eq_some_iff]
  cases found : ofText? text with
  | none => simp [parse, found]
  | some j => simp [parse, found]

theorem parse_letter (i : Attribute) : parse [i.letter] = .ok i :=
  parse_eq_ok_iff.mpr rfl

theorem parse_eq_error_iff {text : List Char} {fault : Fault} :
    parse text = .error fault ↔
      (∀ i : Attribute, text ≠ [i.letter]) ∧ fault = .unknownAttribute (String.ofList text) := by
  simp only [ne_eq, ← ofText?_eq_some_iff]
  cases found : ofText? text with
  | none => simp [parse, found, eq_comm]
  | some j => simp [parse, found]

end Attribute

theorem Comparator.ofSign?_eq_some_iff {sign : Char} {comparator : Comparator} :
    ofSign? sign = some comparator ↔ sign = comparator.sign := by
  constructor
  · intro found
    unfold ofSign? at found
    split at found <;> cases found <;> rfl
  · rintro rfl
    exact ofSign?_sign comparator

namespace Condition

def SpeltBy (condition : Condition) (text : List Char) : Prop :=
  ∃ numeral, text = condition.attr.letter :: condition.comparator.sign :: numeral ∧
    Text.Denotes numeral condition.threshold

theorem speltBy_chars {condition : Condition} (written : Writable condition.threshold) :
    condition.SpeltBy condition.chars :=
  ⟨_, rfl, Text.denotes_ofInt written⟩

theorem SpeltBy.ordinary {condition : Condition} {text : List Char}
    (spelt : condition.SpeltBy text) : ∀ c ∈ text, Text.Ordinary c := by
  obtain ⟨numeral, rfl, denoted⟩ := spelt
  intro c member
  simp only [List.mem_cons] at member
  rcases member with rfl | rfl | inThreshold
  · cases condition.attr <;> decide
  · cases condition.comparator <;> decide
  · exact denoted.ordinary c inThreshold

inductive Defect : List Char → Fault → Prop where
  | empty : Defect [] (.condition .empty)
  | unknownLetter (letter : Char) (rest : List Char)
      (unknown : ∀ i : Attribute, letter ≠ i.letter) :
      Defect (letter :: rest) (.unknownAttribute (String.ofList [letter]))
  | noComparator (i : Attribute) :
      Defect [i.letter] (.condition (.noComparator (String.ofList [i.letter])))
  | unknownSign (i : Attribute) (sign : Char) (numeral : List Char)
      (unknown : ∀ comparator : Comparator, sign ≠ comparator.sign) :
      Defect (i.letter :: sign :: numeral)
        (.unknownComparator (String.ofList [sign]) (String.ofList (i.letter :: sign :: numeral)))
  | badThreshold (i : Attribute) (comparator : Comparator) (numeral : List Char) (fault : Fault)
      (defect : Text.NumeralDefect (.condition (.badThreshold
        (String.ofList (i.letter :: comparator.sign :: numeral)))) numeral fault) :
      Defect (i.letter :: comparator.sign :: numeral) fault

theorem Defect.kind {text : List Char} {fault : Fault} (defect : Defect text fault) :
    fault.kind ∈ [some .malformedCondition, some .unknownAttribute, some .unknownComparator] ∨
      fault.TooLong := by
  cases defect with
  | empty => exact .inl (by decide)
  | unknownLetter => exact .inl (by simp [Fault.kind])
  | noComparator => exact .inl (by simp [Fault.kind])
  | unknownSign => exact .inl (by simp [Fault.kind])
  | badThreshold i comparator numeral fault defect =>
      rcases defect.cases with rfl | long
      · exact .inl (by simp [Fault.kind])
      · exact .inr long

theorem parseChars_eq_ok_iff {text : List Char} {condition : Condition} :
    parseChars text = .ok condition ↔ condition.SpeltBy text := by
  constructor
  · intro parsed
    cases text with
    | nil => contradiction
    | cons letter rest =>
        obtain ⟨i, known, parsed⟩ := Outcome.bind_ok parsed
        obtain ⟨rfl, _⟩ := List.cons.inj (Attribute.parse_eq_ok_iff.mp known)
        cases rest with
        | nil => contradiction
        | cons sign numeral =>
            cases found : Comparator.ofSign? sign with
            | none => simp [found] at parsed
            | some comparator =>
                obtain rfl := Comparator.ofSign?_eq_some_iff.mp found
                simp only [found] at parsed
                obtain ⟨threshold, read, result⟩ := Outcome.bind_ok parsed
                obtain rfl := Except.ok.inj result
                exact ⟨numeral, rfl, Text.readInteger_eq_ok_iff.mp read⟩
  · rintro ⟨numeral, rfl, denoted⟩
    simp only [parseChars, Attribute.parse_letter, Comparator.ofSign?_sign,
      Text.readInteger_eq_ok_iff.mpr denoted]
    rfl

theorem parseChars_eq_error_iff {text : List Char} {fault : Fault} :
    parseChars text = .error fault ↔ Defect text fault := by
  constructor
  · intro failed
    cases text with
    | nil =>
        obtain rfl := Except.error.inj failed
        exact .empty
    | cons letter rest =>
        obtain failed | ⟨i, known, failed⟩ := Outcome.bind_error failed
        · obtain ⟨unknown, rfl⟩ := Attribute.parse_eq_error_iff.mp failed
          exact .unknownLetter letter rest fun i same => unknown i (congrArg (· :: []) same)
        · obtain ⟨rfl, _⟩ := List.cons.inj (Attribute.parse_eq_ok_iff.mp known)
          cases rest with
          | nil =>
              obtain rfl := Except.error.inj failed
              exact .noComparator i
          | cons sign numeral =>
              cases found : Comparator.ofSign? sign with
              | none =>
                  simp only [found] at failed
                  obtain rfl := Except.error.inj failed
                  refine .unknownSign i sign numeral fun comparator same => ?_
                  rw [Comparator.ofSign?_eq_some_iff.mpr same] at found
                  contradiction
              | some comparator =>
                  obtain rfl := Comparator.ofSign?_eq_some_iff.mp found
                  simp only [found] at failed
                  obtain failed | ⟨_, _, impossible⟩ := Outcome.bind_error failed
                  · exact .badThreshold i comparator numeral fault
                      (Text.readInteger_eq_error_iff.mp failed)
                  · contradiction
  · intro defect
    cases defect with
    | empty => rfl
    | unknownLetter letter rest unknown =>
        have failed : Attribute.parse [letter] =
            .error (.unknownAttribute (String.ofList [letter])) :=
          Attribute.parse_eq_error_iff.mpr
            ⟨fun i same => unknown i (List.cons.inj same).1, rfl⟩
        rw [parseChars, failed]
        rfl
    | noComparator i =>
        simp only [parseChars, Attribute.parse_letter]
        rfl
    | unknownSign i sign numeral unknown =>
        have found : Comparator.ofSign? sign = none := by
          apply Option.eq_none_iff_forall_ne_some.mpr
          intro comparator found
          exact unknown comparator (Comparator.ofSign?_eq_some_iff.mp found)
        simp only [parseChars, Attribute.parse_letter, found]
        rfl
    | badThreshold i comparator numeral fault defect =>
        simp only [parseChars, Attribute.parse_letter, Comparator.ofSign?_sign,
          Text.readInteger_eq_error_iff.mpr defect]
        rfl

end Condition

end PartSorting
