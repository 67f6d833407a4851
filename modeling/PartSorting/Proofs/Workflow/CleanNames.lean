import Mathlib.Data.List.Chain
import PartSorting.Listing
import PartSorting.Proofs.Workflow.Grammar
import PartSorting.Table.Walk

/-! # When the names in a workflow are words

The field of a name may have a newline at its end, which then is part of the name.  In the text a
name is followed by a comma or a brace, and a numeral by a colon, so the names are words exactly if
no newline stands directly before a comma or a brace.  A target with a newline is not the sink that
it reads as. -/

set_option autoImplicit false

namespace PartSorting

namespace Text

def EndsName (c : Char) : Prop :=
  c = ',' ∨ c = '\x7b' ∨ c = '\x7d'

instance (c : Char) : Decidable (EndsName c) :=
  inferInstanceAs (Decidable (_ ∨ _))

def Unbroken (text : List Char) : Prop :=
  text.IsChain fun c next => c = '\n' → ¬EndsName next

theorem Ordinary.not_endsName {c : Char} (ordinary : Ordinary c) : ¬EndsName c := by
  obtain ⟨notComma, _, notOpen, notClose⟩ := ordinary
  rintro (rfl | rfl | rfl) <;> contradiction

theorem EndsName.ne_newline {c : Char} (ends : EndsName c) : c ≠ '\n' := by
  rintro rfl
  exact absurd ends (by decide)

theorem not_endsName_of_isBlank {c : Char} (blank : isBlank c = true) : ¬EndsName c := by
  rintro (rfl | rfl | rfl) <;> exact absurd blank (by decide)

theorem unbroken_of_not_endsName {text : List Char} (clear : ∀ c ∈ text, ¬EndsName c) :
    Unbroken text := by
  rw [Unbroken, List.isChain_iff_forall_rel_of_append_cons_cons]
  rintro c next before after rfl _
  exact clear next (by simp)

theorem unbroken_cons {c : Char} (notNewline : c ≠ '\n') (rest : List Char) :
    Unbroken (c :: rest) ↔ Unbroken rest := by
  rw [Unbroken, List.isChain_cons]
  exact and_iff_right fun _ _ newline => absurd newline notNewline

theorem unbroken_append_of_clear {text rest : List Char} (clear : ∀ c ∈ text, ¬EndsName c)
    (first : ∀ c ∈ rest.head?, ¬EndsName c) : Unbroken (text ++ rest) ↔ Unbroken rest := by
  rw [Unbroken, List.isChain_append]
  constructor
  · rintro ⟨_, unbroken, _⟩
    exact unbroken
  · intro unbroken
    exact ⟨unbroken_of_not_endsName clear, unbroken, fun _ _ next isFirst _ => first next isFirst⟩

theorem unbroken_append_ended {text : List Char} (clear : ∀ c ∈ text, ¬EndsName c) {c : Char}
    (ends : EndsName c) (rest : List Char) :
    Unbroken (text ++ c :: rest) ↔ text.getLast? ≠ some '\n' ∧ Unbroken rest := by
  rw [← unbroken_cons ends.ne_newline rest, Unbroken, List.isChain_append]
  constructor
  · rintro ⟨_, unbroken, boundary⟩
    exact ⟨fun newline => boundary '\n' newline c rfl rfl ends, unbroken⟩
  · rintro ⟨noNewline, unbroken⟩
    refine ⟨unbroken_of_not_endsName clear, unbroken, ?_⟩
    rintro _ isLast _ _ rfl
    exact absurd isLast noNewline

theorem IsName.clear {field : List Char} (named : IsName field) : ∀ c ∈ field, ¬EndsName c :=
  fun c member => (named.ordinary c member).not_endsName

theorem IsName.ne_nil {field : List Char} (named : IsName field) : field ≠ [] := by
  obtain ⟨word, isWord, rfl | rfl⟩ := named
  · exact isWord.1
  · exact List.append_ne_nil_of_left_ne_nil isWord.1 _

theorem IsName.word_iff {field : List Char} (named : IsName field) :
    Word field ↔ field.getLast? ≠ some '\n' := by
  constructor
  · intro word newline
    exact (word.inner '\n' (List.mem_of_getLast? newline)).ne_newline rfl
  · obtain ⟨word, isWord, rfl | rfl⟩ := named
    · exact fun _ => isWord
    · exact fun noNewline => absurd (List.getLast?_concat ..) noNewline

theorem IsName.unbroken_append_ended {field : List Char} (named : IsName field) {c : Char}
    (ends : EndsName c) (rest : List Char) :
    Unbroken (field ++ c :: rest) ↔ Word field ∧ Unbroken rest := by
  rw [Text.unbroken_append_ended named.clear ends, named.word_iff]

theorem IsName.reads_iff {name : String} (named : IsName name.toList) :
    (∀ word : String, Word word.toList → UpToNewline word.toList name.toList → name = word) ↔
      Word name.toList := by
  constructor
  · intro reads
    obtain ⟨word, isWord, spelt⟩ := named
    have same := reads (String.ofList word) (by rwa [String.toList_ofList])
      (by rwa [String.toList_ofList])
    rwa [same, String.toList_ofList]
  · intro isWord word _ spelt
    rcases spelt with same | broken
    · exact String.toList_inj.mp same
    · have newline : name.toList.getLast? = some '\n' := by rw [broken, List.getLast?_concat]
      exact absurd newline (named.word_iff.mp isWord)

end Text

theorem Rule.SpeltBy.unbroken_append_ended {rule : Rule} {field : List Char}
    (spelt : rule.SpeltBy field) {c : Char} (ends : Text.EndsName c) (rest : List Char) :
    Text.Unbroken (field ++ c :: rest) ↔ Text.Word rule.target.toList ∧ Text.Unbroken rest := by
  obtain ⟨condition, rfl, conditionSpelt, named⟩ := spelt
  have clear : ∀ d ∈ condition, ¬Text.EndsName d := fun d member =>
    (conditionSpelt.ordinary d member).not_endsName
  have colonFirst : ∀ d ∈ (':' :: (rule.target.toList ++ c :: rest)).head?, ¬Text.EndsName d := by
    intro d first
    obtain rfl := Option.some.inj first
    decide
  rw [List.append_assoc, List.cons_append, Text.unbroken_append_of_clear clear colonFirst,
    Text.unbroken_cons (by decide), named.unbroken_append_ended ends]

namespace Workflow

def names (workflow : Workflow) : List String :=
  workflow.name :: workflow.targets

variable {workflow : Workflow}

theorem forall_mem_names_iff {holds : String → Prop} :
    (∀ name ∈ workflow.names, holds name) ↔
      holds workflow.name ∧ (∀ rule ∈ workflow.rules, holds rule.target) ∧
        holds workflow.fallback := by
  rw [names, targets, List.forall_mem_cons, List.forall_mem_append, List.forall_mem_map,
    List.forall_mem_singleton]

theorem SpeltBy.isName {inner : List Char} (spelt : workflow.SpeltBy inner) :
    ∀ name ∈ workflow.names, Text.IsName name.toList := by
  obtain ⟨rules, _, named, rulesSpelt, fallbackNamed⟩ := spelt
  refine forall_mem_names_iff.mpr ⟨named, ?_, fallbackNamed⟩
  intro rule member
  obtain ⟨_, _, _, _, _, targetNamed⟩ := exists_of_forall₂_left rulesSpelt member
  exact targetNamed

/-- Between the braces each target and the fallback has to be a word. -/
theorem unbroken_join {rules : List Rule} {fields : List (List Char)}
    (spelt : List.Forall₂ Rule.SpeltBy rules fields) {fallback : List Char}
    (named : Text.IsName fallback) (rest : List Char) :
    Text.Unbroken (Text.join ',' (fields ++ [fallback]) ++ '\x7d' :: rest) ↔
      (∀ rule ∈ rules, Text.Word rule.target.toList) ∧ Text.Word fallback ∧
        Text.Unbroken rest := by
  induction spelt with
  | nil =>
      rw [List.nil_append, Text.join, named.unbroken_append_ended (by decide)]
      exact (and_iff_right fun _ member => absurd member List.not_mem_nil).symm
  | cons ruleSpelt _ ih =>
      rw [List.cons_append, Text.join_cons (List.append_ne_nil_of_right_ne_nil _ (by simp)),
        List.append_assoc, List.cons_append, ruleSpelt.unbroken_append_ended (by decide), ih,
        List.forall_mem_cons, and_assoc]

/-- The names are words exactly if the text is unbroken, whatever its blank margins. -/
theorem SpeltBy.names_words_iff {inner text : List Char} (spelt : workflow.SpeltBy inner)
    (padded : Text.Padded inner text) :
    (∀ name ∈ workflow.names, Text.Word name.toList) ↔ Text.Unbroken text := by
  obtain ⟨rules, rfl, named, rulesSpelt, fallbackNamed⟩ := spelt
  obtain ⟨before, after, blankBefore, blankAfter, rfl⟩ := padded
  have clearBefore : ∀ c ∈ before, ¬Text.EndsName c := fun c member =>
    Text.not_endsName_of_isBlank (blankBefore c member)
  have unbrokenAfter : Text.Unbroken after := Text.unbroken_of_not_endsName fun c member =>
    Text.not_endsName_of_isBlank (blankAfter c member)
  have nameFirst : ∀ rest : List Char, ∀ c ∈ (workflow.name.toList ++ rest).head?,
      ¬Text.EndsName c := by
    intro rest c first
    rw [List.head?_append_of_ne_nil _ named.ne_nil] at first
    exact named.clear c (List.mem_of_head? first)
  simp only [List.append_assoc, List.cons_append, List.nil_append]
  rw [Text.unbroken_append_of_clear clearBefore (nameFirst _),
    named.unbroken_append_ended (by decide), unbroken_join rulesSpelt fallbackNamed,
    forall_mem_names_iff, and_iff_left unbrokenAfter]

/-- The names of a workflow that is read are words, up to a newline at the end.  All of them are
words, and each is the word that it reads as, exactly if no newline stands directly before a comma
or a brace in the text. -/
theorem parse_names_iff {text : String} (parsed : parse text = .ok workflow) :
    (∀ name ∈ workflow.names, Text.IsName name.toList) ∧
    ((∀ name ∈ workflow.names, Text.Word name.toList) ↔ Text.Unbroken text.toList) ∧
    ((∀ name ∈ workflow.names, ∀ word : String, Text.Word word.toList →
        Text.UpToNewline word.toList name.toList → name = word) ↔
      Text.Unbroken text.toList) := by
  obtain ⟨inner, trimmed, spelt⟩ := parse_eq_ok_iff.mp parsed
  have named := spelt.isName
  have words := spelt.names_words_iff trimmed.padded
  refine ⟨named, words, ?_⟩
  rw [← words]
  exact forall₂_congr fun name member => (named name member).reads_iff

theorem parse_names_iff_afterNumeral :
    parse " in\x7bx<5\n:A,R\x7d\n" = .ok ⟨"in", [⟨⟨.x, .lessThan, 5⟩, "A"⟩], "R"⟩ ∧
    Text.Unbroken " in\x7bx<5\n:A,R\x7d\n".toList ∧
    ∀ name ∈ ["in", "A", "R"], Text.Word name.toList := by
  have parsed : parse " in\x7bx<5\n:A,R\x7d\n" =
      .ok ⟨"in", [⟨⟨.x, .lessThan, 5⟩, "A"⟩], "R"⟩ := by rfl
  have words : ∀ name ∈ ["in", "A", "R"], Text.Word name.toList := by decide
  obtain ⟨_, unbroken, _⟩ := parse_names_iff parsed
  exact ⟨parsed, unbroken.mp words, words⟩

def brokenTarget : Table where
  entries := [("in", ⟨"in", [], "A\n"⟩)]
  accept := "A"
  reject := "R"
  names_nodup := by decide
  accept_not_name := by decide
  reject_not_name := by decide

/-- A newline behind a target is part of the target, which then is not the sink that it reads as
but a name without a workflow. -/
theorem parse_brokenTarget :
    parse "in\x7bA\n\x7d" = .ok ⟨"in", [], "A\n"⟩ ∧
    ¬Text.Word "A\n".toList ∧
    Text.UpToNewline "A".toList "A\n".toList ∧ "A\n" ≠ "A" ∧
    Listing.parse ["in\x7bA\n\x7d"] "A" "R" = .ok ⟨brokenTarget, []⟩ ∧
    ∀ part, brokenTarget.classify Config.usual part = .error (.unknownWorkflow "A\n") :=
  ⟨by rfl, by decide, .inr (by rfl), by decide, by rfl, fun _ => by rfl⟩

end Workflow

end PartSorting
