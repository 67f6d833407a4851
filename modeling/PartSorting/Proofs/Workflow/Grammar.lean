import PartSorting.Proofs.Condition.Grammar
import PartSorting.Workflow.Parser

/-! # The grammar of workflows

A workflow is a name and, in braces, rules and a fallback, separated by commas.  A text of any
other form has a first defect: in its braces, in the name, in the last field, and then in the
rules from left to right.  Parsing a text gives the workflow that it spells, or the fault of its
first defect. -/

set_option autoImplicit false

namespace PartSorting

namespace Text

def NoBrace (text : List Char) : Prop :=
  ∀ c ∈ text, c ≠ '\x7b' ∧ c ≠ '\x7d'

theorem noBrace_iff {text : List Char} : NoBrace text ↔ ∀ c ∈ text, isNoBrace c = true := by
  simp only [NoBrace, isNoBrace, Bool.and_eq_true, bne_iff_ne]

theorem splitBraces?_append {name body : List Char} (nameClear : NoBrace name)
    (bodyClear : NoBrace body) :
    splitBraces? (name ++ '\x7b' :: body ++ ['\x7d']) = some (name, body) := by
  have inName := noBrace_iff.mp nameClear
  have inBody := noBrace_iff.mp bodyClear
  have openStops : ∀ rest, ('\x7b' :: rest).dropWhile isNoBrace = '\x7b' :: rest := fun _ => rfl
  have openStopsToo : ∀ rest, ('\x7b' :: rest).takeWhile isNoBrace = [] := fun _ => rfl
  have closeStops : ['\x7d'].dropWhile isNoBrace = ['\x7d'] := rfl
  have closeStopsToo : ['\x7d'].takeWhile isNoBrace = [] := rfl
  simp only [splitBraces?, List.append_assoc, List.cons_append,
    List.dropWhile_append_of_pos inName, List.takeWhile_append_of_pos inName,
    List.dropWhile_append_of_pos inBody, List.takeWhile_append_of_pos inBody, openStops,
    openStopsToo, closeStops, closeStopsToo, List.append_nil, if_true]

/-- Without its margins the line is a name and, in the only braces, a body. -/
structure Braced (name body line : List Char) : Prop where
  trimmed : Trimmed (name ++ '\x7b' :: body ++ ['\x7d']) line
  name : NoBrace name
  body : NoBrace body

theorem splitBraces?_eq_some_iff {text name body : List Char} :
    splitBraces? text = some (name, body) ↔
      text = name ++ '\x7b' :: body ++ ['\x7d'] ∧ NoBrace name ∧ NoBrace body := by
  constructor
  · intro found
    unfold splitBraces? at found
    split at found
    · rename_i rest opened
      obtain ⟨closed, same⟩ := Option.ite_none_right_eq_some.mp found
      obtain ⟨rfl, rfl⟩ := Prod.mk.inj (Option.some.inj same)
      refine ⟨?_, noBrace_iff.mpr fun _ => List.mem_takeWhile_imp,
        noBrace_iff.mpr fun _ => List.mem_takeWhile_imp⟩
      rw [List.append_assoc, List.cons_append, ← closed, List.takeWhile_append_dropWhile, ← opened,
        List.takeWhile_append_dropWhile]
    · contradiction
  · rintro ⟨rfl, nameClear, bodyClear⟩
    exact splitBraces?_append nameClear bodyClear

theorem braced_iff {name body line : List Char} :
    Braced name body line ↔ splitBraces? (trim line) = some (name, body) := by
  rw [splitBraces?_eq_some_iff]
  constructor
  · rintro ⟨trimmed, nameClear, bodyClear⟩
    exact ⟨trimmed_iff.mp trimmed, nameClear, bodyClear⟩
  · rintro ⟨same, nameClear, bodyClear⟩
    exact ⟨trimmed_iff.mpr same, nameClear, bodyClear⟩

end Text

namespace Rule

def SpeltBy (rule : Rule) (field : List Char) : Prop :=
  ∃ condition, field = condition ++ ':' :: rule.target.toList ∧
    rule.condition.SpeltBy condition ∧ Text.IsName rule.target.toList

theorem SpeltBy.mem {rule : Rule} {field : List Char} (spelt : rule.SpeltBy field) {c : Char}
    (member : c ∈ field) : c = ':' ∨ Text.Ordinary c := by
  obtain ⟨condition, rfl, conditionSpelt, named⟩ := spelt
  rcases List.mem_append.mp member with inCondition | member
  · exact .inr (conditionSpelt.ordinary c inCondition)
  · exact (List.mem_cons.mp member).imp_right (named.ordinary c)

theorem SpeltBy.count_colon {rule : Rule} {field : List Char} (spelt : rule.SpeltBy field) :
    field.count ':' = 1 := by
  obtain ⟨condition, rfl, conditionSpelt, named⟩ := spelt
  have colon : ¬Text.Ordinary ':' := by decide
  have inCondition := Text.not_mem_of_ordinary colon conditionSpelt.ordinary
  have inTarget := Text.not_mem_of_ordinary colon named.ordinary
  rw [List.count_append, List.count_cons_self, List.count_eq_zero.mpr inCondition,
    List.count_eq_zero.mpr inTarget]

/-- The first defect of a field that is no rule: in its colons, in the condition, in the target. -/
inductive Defect (text : String) (field : List Char) : Fault → Prop where
  | colons (notOne : field.count ':' ≠ 1) :
      Defect text field (.workflow (.badRule (String.ofList field) text))
  | condition (condition target : List Char) (split : field = condition ++ ':' :: target)
      (one : field.count ':' = 1) (fault : Fault) (defect : Condition.Defect condition fault) :
      Defect text field fault
  | target (condition target : List Char) (split : field = condition ++ ':' :: target)
      (one : field.count ':' = 1) (read : ∃ result : Condition, result.SpeltBy condition)
      (noName : ¬Text.IsName target) :
      Defect text field (.workflow (.badTarget (String.ofList target) text))

end Rule

namespace Workflow

def SpeltBy (workflow : Workflow) (text : List Char) : Prop :=
  ∃ rules, text = workflow.name.toList ++ '\x7b' ::
      Text.join ',' (rules ++ [workflow.fallback.toList]) ++ ['\x7d'] ∧
    Text.IsName workflow.name.toList ∧ List.Forall₂ Rule.SpeltBy workflow.rules rules ∧
    Text.IsName workflow.fallback.toList

structure Fields (text : String) (name : List Char) (rules : List (List Char))
    (fallback : List Char) : Prop where
  braced : Text.Braced name (Text.join ',' (rules ++ [fallback])) text.toList
  clean : ∀ field ∈ rules ++ [fallback], ',' ∉ field

inductive Defect (text : String) : Fault → Prop where
  | braces (notBraced : ∀ name body, ¬Text.Braced name body text.toList) :
      Defect text (.workflow (.noBraces text))
  | name (name : List Char) (rules : List (List Char)) (fallback : List Char)
      (fields : Fields text name rules fallback) (noName : ¬Text.IsName name) :
      Defect text (.workflow (.badName text))
  | noFallback (name : List Char) (rules : List (List Char)) (fallback : List Char)
      (fields : Fields text name rules fallback) (named : Text.IsName name)
      (colon : ':' ∈ fallback) : Defect text (.workflow (.noFallback text))
  | rule (name : List Char) (before : List (List Char)) (field : List Char)
      (after : List (List Char)) (fallback : List Char)
      (fields : Fields text name (before ++ field :: after) fallback) (named : Text.IsName name)
      (plain : ':' ∉ fallback)
      (earlier : ∀ other ∈ before, ∃ rule : Rule, rule.SpeltBy other)
      (fault : Fault) (defect : Rule.Defect text field fault) : Defect text fault
  | fallback (name : List Char) (rules : List (List Char)) (fallback : List Char)
      (fields : Fields text name rules fallback) (named : Text.IsName name)
      (plain : ':' ∉ fallback) (all : ∀ field ∈ rules, ∃ rule : Rule, rule.SpeltBy field)
      (noName : ¬Text.IsName fallback) :
      Defect text (.workflow (.badTarget (String.ofList fallback) text))

variable {text : String}

theorem parseTarget_eq_ok_iff {field : List Char} {target : String} :
    parseTarget text field = .ok target ↔ field = target.toList ∧ Text.IsName field := by
  rw [← Text.isWord_iff]
  by_cases word : Text.isWord field = true
  · simp only [parseTarget, word, if_true, Except.ok.injEq, and_true]
    constructor
    · rintro rfl
      exact (String.toList_ofList).symm
    · rintro rfl
      exact String.ofList_toList
  · simp [parseTarget, word]

theorem parseTarget_eq_error_iff {field : List Char} {fault : Fault} :
    parseTarget text field = .error fault ↔
      ¬Text.IsName field ∧ fault = .workflow (.badTarget (String.ofList field) text) := by
  rw [← Text.isWord_iff]
  by_cases word : Text.isWord field = true
  · simp [parseTarget, word]
  · simp [parseTarget, word, eq_comm]

theorem exists_pair_of_count {field : List Char} (one : field.count ':' = 1) :
    ∃ condition target, field = condition ++ ':' :: target := by
  have present : ':' ∈ field := List.count_pos_iff.mp (by omega)
  exact List.append_of_mem present

theorem parseRule_of_pair {condition target field : List Char}
    (split : field = condition ++ ':' :: target) (one : field.count ':' = 1) :
    parseRule text field = do
      let condition ← Condition.parseChars condition
      let target ← parseTarget text target
      return ⟨condition, target⟩ := by
  rw [parseRule, Text.fields_eq_pair_iff.mpr ⟨split, one⟩]

theorem parseRule_of_not_pair {field : List Char} (notOne : field.count ':' ≠ 1) :
    parseRule text field = .error (.workflow (.badRule (String.ofList field) text)) := by
  rw [parseRule]
  split
  · rename_i condition target cut
    exact absurd (Text.fields_eq_pair_iff.mp cut).2 notOne
  · rfl

theorem parseRule_eq_ok_iff {field : List Char} {rule : Rule} :
    parseRule text field = .ok rule ↔ rule.SpeltBy field := by
  constructor
  · intro parsed
    by_cases one : field.count ':' = 1
    · obtain ⟨condition, target, split⟩ := exists_pair_of_count one
      rw [parseRule_of_pair split one] at parsed
      obtain ⟨result, conditionParsed, parsed⟩ := Outcome.bind_ok parsed
      obtain ⟨name, targetParsed, parsed⟩ := Outcome.bind_ok parsed
      obtain rfl := Except.ok.inj parsed
      obtain ⟨rfl, named⟩ := parseTarget_eq_ok_iff.mp targetParsed
      exact ⟨condition, split, Condition.parseChars_eq_ok_iff.mp conditionParsed, named⟩
    · rw [parseRule_of_not_pair one] at parsed
      contradiction
  · intro spelt
    have one := spelt.count_colon
    obtain ⟨condition, split, conditionSpelt, named⟩ := spelt
    rw [parseRule_of_pair split one, Condition.parseChars_eq_ok_iff.mpr conditionSpelt]
    show parseTarget text rule.target.toList >>= _ = _
    rw [parseTarget_eq_ok_iff.mpr ⟨rfl, named⟩]
    rfl

theorem parseRule_eq_error_iff {field : List Char} {fault : Fault} :
    parseRule text field = .error fault ↔ Rule.Defect text field fault := by
  constructor
  · intro failed
    by_cases one : field.count ':' = 1
    · obtain ⟨condition, target, split⟩ := exists_pair_of_count one
      rw [parseRule_of_pair split one] at failed
      obtain failed | ⟨result, conditionParsed, failed⟩ := Outcome.bind_error failed
      · exact .condition condition target split one fault
          (Condition.parseChars_eq_error_iff.mp failed)
      · obtain failed | ⟨_, _, impossible⟩ := Outcome.bind_error failed
        · obtain ⟨noName, rfl⟩ := parseTarget_eq_error_iff.mp failed
          exact .target condition target split one
            ⟨result, Condition.parseChars_eq_ok_iff.mp conditionParsed⟩ noName
        · contradiction
    · rw [parseRule_of_not_pair one] at failed
      obtain rfl := Except.error.inj failed
      exact .colons one
  · intro defect
    cases defect with
    | colons notOne => exact parseRule_of_not_pair notOne
    | condition condition target split one fault defect =>
        rw [parseRule_of_pair split one, Condition.parseChars_eq_error_iff.mpr defect]
        rfl
    | target condition target split one read noName =>
        obtain ⟨result, spelt⟩ := read
        rw [parseRule_of_pair split one, Condition.parseChars_eq_ok_iff.mpr spelt]
        show parseTarget text target >>= _ = _
        rw [parseTarget_eq_error_iff.mpr ⟨noName, rfl⟩]
        rfl

theorem Fields.parse_eq {name : List Char} {rules : List (List Char)} {fallback : List Char}
    (fields : Fields text name rules fallback) :
    parse text =
      if Text.isWord name then
        if ':' ∈ fallback then .error (.workflow (.noFallback text))
        else do
          let rules ← rules.mapM (parseRule text)
          let fallback ← parseTarget text fallback
          return ⟨String.ofList name, rules, fallback⟩
      else .error (.workflow (.badName text)) := by
  have notEmpty : rules ++ [fallback] ≠ [] := List.append_ne_nil_of_right_ne_nil _ (by simp)
  have cut := Text.fields_join notEmpty fields.clean
  have last : (rules ++ [fallback]).getLastD [] = fallback := by simp
  rw [parse, Text.braced_iff.mp fields.braced]
  simp only [cut, last, List.dropLast_concat]

theorem parse_of_not_braced (notBraced : ∀ name body, ¬Text.Braced name body text.toList) :
    parse text = .error (.workflow (.noBraces text)) := by
  rw [parse]
  cases found : Text.splitBraces? (Text.trim text.toList) with
  | none => rfl
  | some pair => exact absurd (Text.braced_iff.mpr found) (notBraced pair.1 pair.2)

theorem braced_cases (text : String) :
    (∀ name body, ¬Text.Braced name body text.toList) ∨
      ∃ name rules fallback, Fields text name rules fallback := by
  by_cases braced : ∃ name body, Text.Braced name body text.toList
  · obtain ⟨name, body, braced⟩ := braced
    obtain ⟨rules, fallback, cut⟩ :=
      (List.eq_nil_or_concat' _).resolve_left (Text.fields_ne_nil ',' body)
    obtain ⟨_, clean, rfl⟩ := Text.fields_eq_iff.mp cut
    exact .inr ⟨name, rules, fallback, braced, clean⟩
  · exact .inl fun name body isBraced => braced ⟨name, body, isBraced⟩

theorem SpeltBy.fields {workflow : Workflow} {inner : List Char} (spelt : workflow.SpeltBy inner)
    (trimmed : Text.Trimmed inner text.toList) :
    ∃ rules, Fields text workflow.name.toList rules workflow.fallback.toList ∧
      Text.IsName workflow.name.toList ∧ List.Forall₂ Rule.SpeltBy workflow.rules rules ∧
      Text.IsName workflow.fallback.toList := by
  obtain ⟨rules, rfl, named, rulesSpelt, fallbackNamed⟩ := spelt
  have mem : ∀ field ∈ rules ++ [workflow.fallback.toList], ∀ c ∈ field,
      c = ':' ∨ Text.Ordinary c := by
    intro field member c inField
    rcases List.mem_append.mp member with isRule | isFallback
    · obtain ⟨rule, _, spelt⟩ := exists_of_forall₂_right rulesSpelt isRule
      exact spelt.mem inField
    · obtain rfl := List.mem_singleton.mp isFallback
      exact .inr (fallbackNamed.ordinary c inField)
  refine ⟨rules, ⟨⟨trimmed, ?_, ?_⟩, ?_⟩, named, rulesSpelt, fallbackNamed⟩
  · intro c inName
    exact (named.ordinary c inName).2.2
  · intro c inBody
    rcases Text.mem_join inBody with rfl | ⟨field, member, inField⟩
    · decide
    · rcases mem field member c inField with rfl | ordinary
      · decide
      · exact ordinary.2.2
  · intro field member comma
    rcases mem field member ',' comma with impossible | ordinary
    · exact absurd impossible (by decide)
    · exact ordinary.1 rfl

theorem parse_eq_ok_iff {workflow : Workflow} :
    parse text = .ok workflow ↔
      ∃ inner, Text.Trimmed inner text.toList ∧ workflow.SpeltBy inner := by
  constructor
  · intro parsed
    obtain notBraced | ⟨name, rules, fallback, fields⟩ := braced_cases text
    · rw [parse_of_not_braced notBraced] at parsed
      contradiction
    · rw [fields.parse_eq] at parsed
      split at parsed
      · rename_i isWord
        split at parsed
        · contradiction
        · obtain ⟨results, rulesParsed, parsed⟩ := Outcome.bind_ok parsed
          obtain ⟨target, targetParsed, parsed⟩ := Outcome.bind_ok parsed
          obtain rfl := Except.ok.inj parsed
          obtain ⟨rfl, fallbackNamed⟩ := parseTarget_eq_ok_iff.mp targetParsed
          have rulesSpelt : List.Forall₂ Rule.SpeltBy results rules :=
            (Outcome.mapM_eq_ok_iff.mp rulesParsed).flip.imp fun _ _ => parseRule_eq_ok_iff.mp
          refine ⟨_, fields.braced.trimmed, rules, ?_, ?_, rulesSpelt, fallbackNamed⟩
          · rw [String.toList_ofList]
          · rw [String.toList_ofList]
            exact Text.isWord_iff.mp isWord
      · contradiction
  · rintro ⟨inner, trimmed, spelt⟩
    obtain ⟨rules, fields, named, rulesSpelt, fallbackNamed⟩ := spelt.fields trimmed
    have plain : ':' ∉ workflow.fallback.toList :=
      Text.not_mem_of_ordinary (by decide) fallbackNamed.ordinary
    have rulesParsed : rules.mapM (parseRule text) = .ok workflow.rules :=
      Outcome.mapM_eq_ok_iff.mpr (rulesSpelt.flip.imp fun _ _ => parseRule_eq_ok_iff.mpr)
    rw [fields.parse_eq, if_pos (Text.isWord_iff.mpr named), if_neg plain, rulesParsed]
    show parseTarget text workflow.fallback.toList >>= _ = _
    rw [parseTarget_eq_ok_iff.mpr ⟨rfl, fallbackNamed⟩]
    show Except.ok (Workflow.mk (String.ofList workflow.name.toList) workflow.rules
      workflow.fallback) = _
    rw [String.ofList_toList]

theorem parse_eq_error_iff {fault : Fault} : parse text = .error fault ↔ Defect text fault := by
  constructor
  · intro failed
    obtain notBraced | ⟨name, rules, fallback, fields⟩ := braced_cases text
    · obtain rfl := Except.error.inj ((parse_of_not_braced notBraced).symm.trans failed)
      exact .braces notBraced
    · rw [fields.parse_eq] at failed
      split at failed
      · rename_i isWord
        have named := Text.isWord_iff.mp isWord
        split at failed
        · rename_i colon
          obtain rfl := Except.error.inj failed
          exact .noFallback name rules fallback fields named colon
        · rename_i plain
          obtain failed | ⟨results, rulesParsed, failed⟩ := Outcome.bind_error failed
          · obtain ⟨before, field, after, rfl, earlier, failed⟩ :=
              Outcome.mapM_eq_error_iff.mp failed
            exact .rule name before field after fallback fields named plain
              (fun other member => (earlier other member).imp fun _ => parseRule_eq_ok_iff.mp)
              fault (parseRule_eq_error_iff.mp failed)
          · obtain failed | ⟨_, _, impossible⟩ := Outcome.bind_error failed
            · obtain ⟨noName, rfl⟩ := parseTarget_eq_error_iff.mp failed
              have all := Outcome.exists_mapM_ok_iff.mp ⟨results, rulesParsed⟩
              exact .fallback name rules fallback fields named plain
                (fun field member => (all field member).imp fun _ => parseRule_eq_ok_iff.mp) noName
            · contradiction
      · rename_i notWord
        obtain rfl := Except.error.inj failed
        exact .name name rules fallback fields fun named => notWord (Text.isWord_iff.mpr named)
  · intro defect
    cases defect with
    | braces notBraced => exact parse_of_not_braced notBraced
    | name name rules fallback fields noName =>
        rw [fields.parse_eq, if_neg fun isWord => noName (Text.isWord_iff.mp isWord)]
    | noFallback name rules fallback fields named colon =>
        rw [fields.parse_eq, if_pos (Text.isWord_iff.mpr named), if_pos colon]
    | rule name before field after fallback fields named plain earlier fault defect =>
        have failed : (before ++ field :: after).mapM (parseRule text) = .error fault := by
          refine Outcome.mapM_eq_error_iff.mpr ⟨before, field, after, rfl, ?_,
            parseRule_eq_error_iff.mpr defect⟩
          intro other member
          exact (earlier other member).imp fun _ => parseRule_eq_ok_iff.mpr
        rw [fields.parse_eq, if_pos (Text.isWord_iff.mpr named), if_neg plain, failed]
        rfl
    | fallback name rules fallback fields named plain all noName =>
        have parsed : ∀ field ∈ rules, ∃ rule, parseRule text field = .ok rule :=
          fun field member => (all field member).imp fun _ => parseRule_eq_ok_iff.mpr
        obtain ⟨results, rulesParsed⟩ := Outcome.exists_mapM_ok_iff.mpr parsed
        rw [fields.parse_eq, if_pos (Text.isWord_iff.mpr named), if_neg plain, rulesParsed]
        show parseTarget text fallback >>= _ = _
        rw [parseTarget_eq_error_iff.mpr ⟨noName, rfl⟩]
        rfl

theorem Defect.kind {fault : Fault} (defect : Defect text fault) :
    fault.kind = some .malformedWorkflow ∨
      ∃ condition, Condition.Defect condition fault := by
  cases defect with
  | braces => exact .inl rfl
  | name => exact .inl rfl
  | noFallback => exact .inl rfl
  | fallback => exact .inl rfl
  | rule _ _ field _ _ _ _ _ _ fault defect =>
      cases defect with
      | colons => exact .inl rfl
      | target => exact .inl rfl
      | condition condition _ _ _ fault defect => exact .inr ⟨condition, defect⟩

/-- Parsing accepts exactly the texts that spell workflows, each as the workflow that it spells,
and refuses every other text for its first defect. -/
theorem parse_grammatical (text : String) :
    (∀ workflow, parse text = .ok workflow ↔
      ∃ inner, Text.Trimmed inner text.toList ∧ workflow.SpeltBy inner) ∧
    (∀ fault, parse text = .error fault ↔ Defect text fault) ∧
    ∀ fault, parse text = .error fault →
      fault.kind ∈ [some .malformedWorkflow, some .malformedCondition, some .unknownAttribute,
        some .unknownComparator] ∨ fault.TooLong := by
  refine ⟨fun _ => parse_eq_ok_iff, fun _ => parse_eq_error_iff, ?_⟩
  intro fault failed
  rcases (parse_eq_error_iff.mp failed).kind with isWorkflow | ⟨condition, defect⟩
  · exact .inl (by simp [isWorkflow])
  · exact defect.kind.imp_left (List.mem_cons_of_mem _)

theorem parse_grammatical_newlines :
    (parse " in\x7bx<-05\n:A\n,R\x7d\t" = .ok ⟨"in", [⟨⟨.x, .lessThan, -5⟩, "A\n"⟩], "R"⟩ ∧
      ∃ inner, Text.Trimmed inner " in\x7bx<-05\n:A\n,R\x7d\t".toList ∧
        Workflow.SpeltBy ⟨"in", [⟨⟨.x, .lessThan, -5⟩, "A\n"⟩], "R"⟩ inner) ∧
    parse "in\x7bx<5:A,q>1:,y:A:B,\x7d" = .error (.unknownAttribute "q") ∧
    Defect "in\x7bx<5:A,q>1:,y:A:B,\x7d" (.unknownAttribute "q") ∧
    ((Fault.unknownAttribute "q").kind ∈ [some .malformedWorkflow, some .malformedCondition,
      some .unknownAttribute, some .unknownComparator] ∨ (Fault.unknownAttribute "q").TooLong) := by
  have parsed : parse " in\x7bx<-05\n:A\n,R\x7d\t" =
      .ok ⟨"in", [⟨⟨.x, .lessThan, -5⟩, "A\n"⟩], "R"⟩ := by
    rfl
  have failed : parse "in\x7bx<5:A,q>1:,y:A:B,\x7d" = .error (.unknownAttribute "q") := by
    rfl
  obtain ⟨accepts, refuses, kinds⟩ := parse_grammatical "in\x7bx<5:A,q>1:,y:A:B,\x7d"
  exact ⟨⟨parsed, ((parse_grammatical _).1 _).mp parsed⟩, failed, (refuses _).mp failed,
    kinds _ failed⟩

end Workflow

end PartSorting
