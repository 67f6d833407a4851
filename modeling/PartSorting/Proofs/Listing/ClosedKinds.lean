import PartSorting.Proofs.Listing.Spelling

/-! # The faults of an input are of the kinds of the input

Reading conditions, workflows, records and listings fails with a fault that has one of the kinds of
the input, but for one exception: the first defect may be a numeral with more digits than are read,
and then the fault has no kind.  The exception is described without the functions that read, and
does not occur in a text that has no such run of digits. -/

set_option autoImplicit false

namespace PartSorting

namespace Fault

def OfInput (fault : Fault) : Prop :=
  ∃ kind, fault.kind = some kind ∧ kind.category = .input

/-- The outcome is a result, or a fault of the input. -/
def Closed {α : Type} (outcome : Except Fault α) : Prop :=
  ∀ fault, outcome = .error fault → fault.OfInput

theorem TooLong.kind_eq_none {fault : Fault} (tooLong : fault.TooLong) : fault.kind = none := by
  cases tooLong
  rfl

theorem TooLong.not_ofInput {fault : Fault} (tooLong : fault.TooLong) : ¬fault.OfInput := by
  rintro ⟨kind, hasKind, _⟩
  rw [tooLong.kind_eq_none] at hasKind
  contradiction

theorem ofInput_iff {fault : Fault} :
    fault.OfInput ↔ fault.kind ∈ [some .malformedCondition, some .malformedWorkflow,
      some .malformedRecord, some .unknownAttribute, some .unknownComparator] := by
  rw [OfInput]
  cases fault.kind with
  | none => simp
  | some kind => cases kind <;> simp [FaultKind.category]

theorem ofInput_of_kind_mem {fault : Fault} {kinds : List (Option FaultKind)}
    (ofInput : kinds ⊆ [some .malformedCondition, some .malformedWorkflow, some .malformedRecord,
      some .unknownAttribute, some .unknownComparator])
    (listed : fault.kind ∈ kinds) : fault.OfInput :=
  ofInput_iff.mpr (ofInput listed)

/-- The outcome is a result or a fault of the input unless a numeral is too long, and this under
the given condition. -/
structure ClosedUnless {α : Type} (overlong : Prop) (outcome : Except Fault α) : Prop where
  faults : ∀ fault, outcome = .error fault → fault.OfInput ∨ fault.TooLong
  tooLong_iff : (∃ fault, outcome = .error fault ∧ fault.TooLong) ↔ overlong

/-- A parser that is described by its defects is closed but for those with a numeral that is too
long. -/
theorem ClosedUnless.of_defects {α : Type} {overlong : Prop} {outcome : Except Fault α}
    {Defect : Fault → Prop} (fails_iff : ∀ {fault}, outcome = .error fault ↔ Defect fault)
    (kinds : ∀ fault, Defect fault → fault.OfInput ∨ fault.TooLong)
    (overlong_of : ∀ fault, Defect fault → fault.TooLong → overlong)
    (defect_of : overlong → ∃ fault, Defect fault ∧ fault.TooLong) :
    ClosedUnless overlong outcome where
  faults fault failed := kinds fault (fails_iff.mp failed)
  tooLong_iff := by
    simp only [fails_iff]
    exact ⟨fun ⟨fault, defect, tooLong⟩ => overlong_of fault defect tooLong, defect_of⟩

theorem ClosedUnless.closed_iff {α : Type} {overlong : Prop} {outcome : Except Fault α}
    (closed : ClosedUnless overlong outcome) : Closed outcome ↔ ¬overlong := by
  rw [← closed.tooLong_iff]
  constructor
  · rintro ofInput ⟨fault, failed, tooLong⟩
    exact tooLong.not_ofInput (ofInput fault failed)
  · intro none fault failed
    exact (closed.faults fault failed).resolve_right fun tooLong => none ⟨fault, failed, tooLong⟩

end Fault

namespace Text

def Overlong (field : List Char) : Prop :=
  ∃ numeral : Numeral, numeral.SpeltBy field ∧ digitLimit < numeral.digits.length

theorem NumeralDefect.overlong {malformed fault : Fault} {field : List Char}
    (defect : NumeralDefect malformed field fault) (tooLong : fault.TooLong)
    (otherwise : ¬malformed.TooLong) : Overlong field := by
  cases defect with
  | malformed _ => exact absurd tooLong otherwise
  | tooLong numeral spelt long => exact ⟨numeral, spelt, long⟩

theorem Overlong.defect {field : List Char} (overlong : Overlong field) (malformed : Fault) :
    ∃ fault, NumeralDefect malformed field fault ∧ fault.TooLong := by
  obtain ⟨numeral, spelt, long⟩ := overlong
  exact ⟨_, .tooLong numeral spelt long, .intro _ long⟩

/-- No more digits stand in a row than a numeral may have. -/
def ShortRuns (text : List Char) : Prop :=
  ∀ run, run <:+: text → (∀ c ∈ run, c.isDigit = true) → run.length ≤ digitLimit

theorem ShortRuns.of_isInfix {text part : List Char} (short : ShortRuns text)
    (within : part <:+: text) : ShortRuns part :=
  fun run inPart => short run (inPart.trans within)

theorem shortRuns_of_length_le {text : List Char} (short : text.length ≤ digitLimit) :
    ShortRuns text :=
  fun _ within _ => Nat.le_trans within.length_le short

theorem ShortRuns.not_overlong {field : List Char} (short : ShortRuns field) :
    ¬Overlong field := by
  rintro ⟨numeral, ⟨proper, spelt⟩, long⟩
  have inText : numeral.digits <:+: numeral.text := by
    rw [Numeral.text]
    split
    · exact (List.suffix_cons _ _).isInfix
    · exact List.infix_rfl
  have inField : numeral.text <:+: field := by
    rcases spelt with rfl | rfl
    · exact List.infix_rfl
    · exact (List.prefix_append _ _).isInfix
  exact Nat.not_le.mpr long (short _ (inText.trans inField) proper.digits)

theorem isInfix_join_of_mem {separator : Char} {parts : List (List Char)} {part : List Char}
    (member : part ∈ parts) : part <:+: join separator parts := by
  induction parts with
  | nil => exact absurd member List.not_mem_nil
  | cons first parts ih =>
      cases parts with
      | nil =>
          obtain rfl := List.mem_singleton.mp member
          exact List.infix_rfl
      | cons next more =>
          rcases List.mem_cons.mp member with rfl | later
          · exact (List.prefix_append _ _).isInfix
          · rw [join_cons (List.cons_ne_nil next more)]
            exact (ih later).trans ((List.suffix_cons _ _).trans (List.suffix_append _ _)).isInfix

theorem Trimmed.isInfix {text line : List Char} (trimmed : Trimmed text line) : text <:+: line := by
  obtain ⟨before, after, _, _, rfl⟩ := trimmed.padded
  exact ⟨before, after, rfl⟩

end Text

namespace Condition

inductive Overlong : List Char → Prop where
  | threshold (i : Attribute) (comparator : Comparator) (numeral : List Char)
      (long : Text.Overlong numeral) : Overlong (i.letter :: comparator.sign :: numeral)

theorem Defect.overlong {text : List Char} {fault : Fault} (defect : Defect text fault)
    (tooLong : fault.TooLong) : Overlong text := by
  cases defect with
  | badThreshold i comparator numeral fault defect =>
      exact .threshold i comparator numeral (defect.overlong tooLong nofun)
  | empty => contradiction
  | unknownLetter => contradiction
  | noComparator => contradiction
  | unknownSign => contradiction

theorem Overlong.defect {text : List Char} (overlong : Overlong text) :
    ∃ fault, Defect text fault ∧ fault.TooLong := by
  obtain ⟨i, comparator, numeral, long⟩ := overlong
  obtain ⟨fault, defect, tooLong⟩ := long.defect _
  exact ⟨fault, .badThreshold i comparator numeral fault defect, tooLong⟩

theorem Overlong.not_shortRuns {text : List Char} (overlong : Overlong text) :
    ¬Text.ShortRuns text := by
  obtain ⟨i, comparator, numeral, long⟩ := overlong
  intro short
  have behind : numeral <:+ i.letter :: comparator.sign :: numeral :=
    (List.suffix_cons _ _).trans (List.suffix_cons _ _)
  exact (short.of_isInfix behind.isInfix).not_overlong long

theorem Defect.ofInput_or_tooLong {text : List Char} {fault : Fault} (defect : Defect text fault) :
    fault.OfInput ∨ fault.TooLong :=
  defect.kind.imp_left (Fault.ofInput_of_kind_mem (by decide))

theorem closedUnless_parse (text : String) :
    Fault.ClosedUnless (Overlong text.toList) (parse text) :=
  .of_defects parseChars_eq_error_iff (fun _ defect => defect.ofInput_or_tooLong)
    (fun _ defect => defect.overlong) Overlong.defect

end Condition

namespace Workflow

inductive Overlong (text : String) : Prop where
  | condition (name : List Char) (before : List (List Char)) (condition target : List Char)
      (after : List (List Char)) (fallback : List Char)
      (fields : Fields text name (before ++ (condition ++ ':' :: target) :: after) fallback)
      (named : Text.IsName name) (plain : ':' ∉ fallback)
      (earlier : ∀ other ∈ before, ∃ rule : Rule, rule.SpeltBy other)
      (one : (condition ++ ':' :: target).count ':' = 1)
      (long : Condition.Overlong condition) : Overlong text

variable {text : String}

theorem Defect.overlong {fault : Fault} (defect : Defect text fault) (tooLong : fault.TooLong) :
    Overlong text := by
  cases defect with
  | rule name before field after fallback fields named plain earlier fault defect =>
      cases defect with
      | condition condition target split one fault defect =>
          subst split
          exact .condition name before condition target after fallback fields named plain earlier
            one (defect.overlong tooLong)
      | colons => contradiction
      | target => contradiction
  | braces => contradiction
  | name => contradiction
  | noFallback => contradiction
  | fallback => contradiction

theorem Overlong.defect (overlong : Overlong text) :
    ∃ fault, Defect text fault ∧ fault.TooLong := by
  obtain ⟨name, before, condition, target, after, fallback, fields, named, plain, earlier, one,
    long⟩ := overlong
  obtain ⟨fault, defect, tooLong⟩ := long.defect
  exact ⟨fault, .rule name before _ after fallback fields named plain earlier fault
    (.condition condition target rfl one fault defect), tooLong⟩

theorem Fields.isInfix {name : List Char} {rules : List (List Char)} {fallback field : List Char}
    (fields : Fields text name rules fallback) (member : field ∈ rules) :
    field <:+: text.toList := by
  have inBody : field <:+: Text.join ',' (rules ++ [fallback]) :=
    Text.isInfix_join_of_mem (List.mem_append_left _ member)
  have inBraces : Text.join ',' (rules ++ [fallback]) <:+:
      name ++ '\x7b' :: Text.join ',' (rules ++ [fallback]) ++ ['\x7d'] :=
    ⟨name ++ ['\x7b'], ['\x7d'], by simp⟩
  exact (inBody.trans inBraces).trans fields.braced.trimmed.isInfix

theorem Overlong.not_shortRuns (overlong : Overlong text) : ¬Text.ShortRuns text.toList := by
  obtain ⟨name, before, condition, target, after, fallback, fields, _, _, _, _, long⟩ := overlong
  intro short
  have inText := fields.isInfix (List.mem_append_right before List.mem_cons_self)
  have inField : condition <:+: condition ++ ':' :: target := (List.prefix_append _ _).isInfix
  exact long.not_shortRuns (short.of_isInfix (inField.trans inText))

theorem Defect.ofInput_or_tooLong {fault : Fault} (defect : Defect text fault) :
    fault.OfInput ∨ fault.TooLong := by
  rcases defect.kind with isWorkflow | ⟨condition, inCondition⟩
  · exact .inl ⟨.malformedWorkflow, isWorkflow, rfl⟩
  · exact inCondition.ofInput_or_tooLong

theorem closedUnless_parse (text : String) : Fault.ClosedUnless (Overlong text) (parse text) :=
  .of_defects parse_eq_error_iff (fun _ defect => defect.ofInput_or_tooLong)
    (fun _ defect => defect.overlong) Overlong.defect

end Workflow

namespace Part

inductive Overlong (text : String) : Prop where
  | value (before : List (List Char)) (i : Attribute) (numeral : List Char)
      (after : List (List Char))
      (fields : Fields text (before ++ (i.letter :: '=' :: numeral) :: after))
      (entries : List (Attribute × Int)) (earlier : List.Forall₂ Gives entries before)
      (distinct : (entries.map Prod.fst).Nodup) (fresh : i ∉ entries.map Prod.fst)
      (long : Text.Overlong numeral) : Overlong text

variable {text : String}

theorem Defect.overlong {fault : Fault} (defect : Defect text fault) (tooLong : fault.TooLong) :
    Overlong text := by
  cases defect with
  | field before field after fields entries earlier distinct fault defect =>
      cases defect with
      | value i numeral split fresh fault defect =>
          subst split
          exact .value before i numeral after fields entries earlier distinct fresh
            (defect.overlong tooLong nofun)
      | noEquals => contradiction
      | noAttribute => contradiction
      | unknown => contradiction
      | duplicate => contradiction
  | braces => contradiction
  | missing => contradiction

theorem Overlong.defect (overlong : Overlong text) :
    ∃ fault, Defect text fault ∧ fault.TooLong := by
  obtain ⟨before, i, numeral, after, fields, entries, earlier, distinct, fresh, long⟩ := overlong
  obtain ⟨fault, defect, tooLong⟩ := long.defect _
  exact ⟨fault, .field before _ after fields entries earlier distinct fault
    (.value i numeral rfl fresh fault defect), tooLong⟩

theorem Fields.isInfix {all : List (List Char)} {field : List Char} (fields : Fields text all)
    (member : field ∈ all) : field <:+: text.toList := by
  have inBody : field <:+: Text.join ',' all := Text.isInfix_join_of_mem member
  have inBraces : Text.join ',' all <:+: '\x7b' :: Text.join ',' all ++ ['\x7d'] :=
    ⟨['\x7b'], ['\x7d'], by simp⟩
  exact (inBody.trans inBraces).trans fields.trimmed.isInfix

theorem Overlong.not_shortRuns (overlong : Overlong text) : ¬Text.ShortRuns text.toList := by
  obtain ⟨before, i, numeral, after, fields, _, _, _, _, long⟩ := overlong
  intro short
  have inField : numeral <:+: i.letter :: '=' :: numeral :=
    ((List.suffix_cons _ _).trans (List.suffix_cons _ _)).isInfix
  have inText := fields.isInfix (List.mem_append_right before List.mem_cons_self)
  exact (short.of_isInfix (inField.trans inText)).not_overlong long

theorem Defect.ofInput_or_tooLong {fault : Fault} (defect : Defect text fault) :
    fault.OfInput ∨ fault.TooLong :=
  defect.kind.imp_left (Fault.ofInput_of_kind_mem (by decide))

theorem closedUnless_parse (text : String) : Fault.ClosedUnless (Overlong text) (parse text) :=
  .of_defects parse_eq_error_iff (fun _ defect => defect.ofInput_or_tooLong)
    (fun _ defect => defect.overlong) Overlong.defect

end Part

namespace Listing

/-- The lines are a listing up to one whose first defect is a numeral that is too long. -/
inductive Overlong (lines : List String) : Prop where
  | workflow (before : List String) (line : String) (after : List String)
      (split : workflowLines lines = before ++ line :: after)
      (earlier : ∀ other ∈ before, ∃ workflow, Workflow.parse (content other) = .ok workflow)
      (long : Workflow.Overlong (content line)) : Overlong lines
  | part (all : ∀ line ∈ workflowLines lines,
        ∃ workflow, Workflow.parse (content line) = .ok workflow)
      (before : List String) (line : String) (after : List String)
      (split : partLines lines = before ++ line :: after)
      (earlier : ∀ other ∈ before, ∃ part, Part.parse (content other) = .ok part)
      (long : Part.Overlong (content line)) : Overlong lines

variable {lines : List String} {accept reject : String}

theorem FirstFault.ofInput_or_tooLong {fault : Fault}
    (first : FirstFault lines accept reject fault) : fault.OfInput ∨ fault.TooLong := by
  cases first with
  | workflow _ line _ _ _ fault failed =>
      exact (Workflow.closedUnless_parse (content line)).faults fault failed
  | part _ _ line _ _ _ fault failed =>
      exact (Part.closedUnless_parse (content line)).faults fault failed
  | table _ _ _ fault collision =>
      cases collision <;> exact .inl ⟨.malformedWorkflow, rfl, rfl⟩

theorem FirstFault.overlong {fault : Fault} (first : FirstFault lines accept reject fault)
    (tooLong : fault.TooLong) : Overlong lines := by
  cases first with
  | workflow before line after split earlier fault failed =>
      exact .workflow before line after split earlier
        ((Workflow.closedUnless_parse (content line)).tooLong_iff.mp ⟨fault, failed, tooLong⟩)
  | part all before line after split earlier fault failed =>
      exact .part all before line after split earlier
        ((Part.closedUnless_parse (content line)).tooLong_iff.mp ⟨fault, failed, tooLong⟩)
  | table _ _ _ fault collision => cases collision <;> contradiction

theorem Overlong.firstFault (overlong : Overlong lines) (accept reject : String) :
    ∃ fault, FirstFault lines accept reject fault ∧ fault.TooLong := by
  cases overlong with
  | workflow before line after split earlier long =>
      obtain ⟨fault, failed, tooLong⟩ :=
        (Workflow.closedUnless_parse (content line)).tooLong_iff.mpr long
      exact ⟨fault, .workflow before line after split earlier fault failed, tooLong⟩
  | part all before line after split earlier long =>
      obtain ⟨fault, failed, tooLong⟩ :=
        (Part.closedUnless_parse (content line)).tooLong_iff.mpr long
      exact ⟨fault, .part all before line after split earlier fault failed, tooLong⟩

theorem closedUnless_parse (lines : List String) (accept reject : String) :
    Fault.ClosedUnless (Overlong lines) (parse lines accept reject) :=
  .of_defects parse_eq_error_iff (fun _ first => first.ofInput_or_tooLong)
    (fun _ first => first.overlong) fun overlong => overlong.firstFault accept reject

theorem mem_of_mem_workflowLines {line : String} (member : line ∈ workflowLines lines) :
    line ∈ lines :=
  (List.dropWhile_sublist _).subset ((List.takeWhile_sublist _).subset member)

theorem mem_of_mem_partLines {line : String} (member : line ∈ partLines lines) : line ∈ lines :=
  (List.dropWhile_sublist _).subset
    ((List.dropWhile_sublist _).subset (List.mem_filter.mp member).1)

theorem shortRuns_content {line : String} (short : Text.ShortRuns line.toList) :
    Text.ShortRuns (content line).toList := by
  rw [content, String.toList_ofList]
  exact short.of_isInfix (Text.trimmed_trim line.toList).isInfix

theorem Overlong.not_shortRuns (overlong : Overlong lines) :
    ¬∀ line ∈ lines, Text.ShortRuns line.toList := by
  intro short
  cases overlong with
  | workflow before line after split _ long =>
      have member : line ∈ workflowLines lines :=
        split ▸ List.mem_append_right before List.mem_cons_self
      exact long.not_shortRuns (shortRuns_content (short line (mem_of_mem_workflowLines member)))
  | part _ before line after split _ long =>
      have member : line ∈ partLines lines :=
        split ▸ List.mem_append_right before List.mem_cons_self
      exact long.not_shortRuns (shortRuns_content (short line (mem_of_mem_partLines member)))

/-- Conditions, workflows, records and listings are read, or refused with a fault of the input,
exactly unless their first defect is a numeral that is too long.  Where no more digits stand in a
row than a numeral may have, there is no such defect. -/
theorem parse_closed_iff (text : String) (lines : List String) (accept reject : String) :
    (Fault.Closed (Condition.parse text) ↔ ¬Condition.Overlong text.toList) ∧
    (Fault.Closed (Workflow.parse text) ↔ ¬Workflow.Overlong text) ∧
    (Fault.Closed (Part.parse text) ↔ ¬Part.Overlong text) ∧
    (Fault.Closed (parse lines accept reject) ↔ ¬Overlong lines) ∧
    (∀ fault, Condition.parse text = .error fault ∨ Workflow.parse text = .error fault ∨
        Part.parse text = .error fault ∨ parse lines accept reject = .error fault →
      fault.OfInput ∨ fault.TooLong) ∧
    (Text.ShortRuns text.toList → Fault.Closed (Condition.parse text) ∧
      Fault.Closed (Workflow.parse text) ∧ Fault.Closed (Part.parse text)) ∧
    ((∀ line ∈ lines, Text.ShortRuns line.toList) →
      Fault.Closed (parse lines accept reject)) := by
  have condition := Condition.closedUnless_parse text
  have workflow := Workflow.closedUnless_parse text
  have part := Part.closedUnless_parse text
  have listing := closedUnless_parse lines accept reject
  refine ⟨condition.closed_iff, workflow.closed_iff, part.closed_iff, listing.closed_iff, ?_, ?_,
    ?_⟩
  · rintro fault (failed | failed | failed | failed)
    · exact condition.faults fault failed
    · exact workflow.faults fault failed
    · exact part.faults fault failed
    · exact listing.faults fault failed
  · intro short
    exact ⟨condition.closed_iff.mpr fun long => long.not_shortRuns short,
      workflow.closed_iff.mpr fun long => long.not_shortRuns short,
      part.closed_iff.mpr fun long => long.not_shortRuns short⟩
  · exact fun short => listing.closed_iff.mpr fun long => long.not_shortRuns short

theorem parse_closed_iff_shortLines :
    parse ["in\x7bx<5:A,R\x7d", "", "\x7bx=1,x=2\x7d"] "A" "R" =
      .error (.record (.duplicateAttribute "x" "\x7bx=1,x=2\x7d")) ∧
    (Fault.record (.duplicateAttribute "x" "\x7bx=1,x=2\x7d")).OfInput ∧
    (∀ line ∈ ["in\x7bx<5:A,R\x7d", "", "\x7bx=1,x=2\x7d"], Text.ShortRuns line.toList) ∧
    Fault.Closed (Condition.parse "x<") := by
  have failed : parse ["in\x7bx<5:A,R\x7d", "", "\x7bx=1,x=2\x7d"] "A" "R" =
      .error (.record (.duplicateAttribute "x" "\x7bx=1,x=2\x7d")) := by rfl
  have short : ∀ line ∈ ["in\x7bx<5:A,R\x7d", "", "\x7bx=1,x=2\x7d"],
      Text.ShortRuns line.toList := by
    intro line member
    apply Text.shortRuns_of_length_le
    revert line
    decide
  have shortText : Text.ShortRuns "x<".toList := Text.shortRuns_of_length_le (by decide)
  obtain ⟨_, _, _, _, _, texts, listings⟩ :=
    parse_closed_iff "x<" ["in\x7bx<5:A,R\x7d", "", "\x7bx=1,x=2\x7d"] "A" "R"
  exact ⟨failed, listings short _ failed, short, (texts shortText).1⟩

def ruleLine (digits : List Char) : List Char :=
  ['i', 'n'] ++ '\x7b' ::
    Text.join ',' (('x' :: '<' :: digits ++ ':' :: ['A']) :: [['R']]) ++ ['\x7d']

theorem fields_ruleLine {digits : List Char} (proper : ∀ c ∈ digits, c.isDigit = true) :
    Workflow.Fields (String.ofList (ruleLine digits)) ['i', 'n']
      ([] ++ ('x' :: '<' :: digits ++ ':' :: ['A']) :: []) ['R'] := by
  have inField : ∀ c ∈ 'x' :: '<' :: digits ++ ':' :: ['A'],
      c ≠ ',' ∧ c ≠ '\x7b' ∧ c ≠ '\x7d' := by
    intro c member
    simp only [List.mem_append, List.mem_cons, List.not_mem_nil, or_false] at member
    rcases member with (rfl | rfl | isDigit) | rfl | rfl
    · decide
    · decide
    · have inner := Text.inner_of_isWordChar (Text.isWordChar_of_isDigit (proper c isDigit))
      exact ⟨inner.1, inner.2.2.1, inner.2.2.2.1⟩
    · decide
    · decide
  have fields : ∀ field ∈ [] ++ ('x' :: '<' :: digits ++ ':' :: ['A']) :: [] ++ [['R']],
      ∀ c ∈ field, c ≠ ',' ∧ c ≠ '\x7b' ∧ c ≠ '\x7d' := by
    have last : ∀ c ∈ ['R'], c ≠ ',' ∧ c ≠ '\x7b' ∧ c ≠ '\x7d' :=
      List.forall_mem_singleton.mpr (by decide)
    exact List.forall_mem_cons.mpr ⟨inField, List.forall_mem_singleton.mpr last⟩
  refine ⟨⟨⟨?_, ?_, ?_⟩, ?_, ?_⟩, ?_⟩
  · rw [String.toList_ofList]
    exact .refl _
  · intro c first
    obtain rfl := Option.some.inj first
    decide
  · intro c last
    rw [List.getLast?_concat] at last
    obtain rfl := Option.some.inj last
    decide
  · exact List.forall_mem_cons.mpr ⟨by decide, List.forall_mem_singleton.mpr (by decide)⟩
  · intro c member
    rcases Text.mem_join member with rfl | ⟨field, listed, inside⟩
    · decide
    · exact (fields field listed c inside).2
  · exact fun field listed comma => (fields field listed _ comma).1 rfl

theorem overlong_ruleLine {digits : List Char} (proper : ∀ c ∈ digits, c.isDigit = true)
    (long : digitLimit < digits.length) : Overlong [String.ofList (ruleLine digits)] := by
  have fields := fields_ruleLine proper
  have trimmed := fields.braced.trimmed
  have notEmpty : digits ≠ [] := List.ne_nil_of_length_pos (Nat.zero_lt_of_lt long)
  have noColon : ':' ∉ 'x' :: '<' :: digits := by
    simp only [List.mem_cons, not_or]
    exact ⟨by decide, by decide, fun colon => absurd (proper ':' colon) (by decide)⟩
  have one : ('x' :: '<' :: digits ++ ':' :: ['A']).count ':' = 1 := by
    rw [List.count_append, List.count_eq_zero.mpr noColon]
    rfl
  have numeral : Text.Overlong digits := ⟨⟨false, digits⟩, ⟨⟨notEmpty, proper⟩, .inl rfl⟩, long⟩
  have workflow : Workflow.Overlong (String.ofList (ruleLine digits)) :=
    .condition _ [] ('x' :: '<' :: digits) ['A'] [] _ fields (Text.Word.isName (by decide))
      (by decide) (fun _ member => absurd member List.not_mem_nil) one
      (.threshold .x .lessThan digits numeral)
  have said : isBlank (String.ofList (ruleLine digits)) = false :=
    isBlank_of_trimmed trimmed (List.append_ne_nil_of_right_ne_nil _ (List.cons_ne_nil _ _))
  have same : content (String.ofList (ruleLine digits)) = String.ofList (ruleLine digits) := by
    rw [content, Text.trimmed_iff.mp trimmed]
    rfl
  refine .workflow [] (String.ofList (ruleLine digits)) [] ?_
    (fun _ member => absurd member List.not_mem_nil) (same.symm ▸ workflow)
  rw [workflowLines, List.dropWhile_cons_of_neg (by simp [said]),
    List.takeWhile_cons_of_pos (by simp [said])]
  rfl

/-- A threshold of too many nines makes a listing fail, but not with a fault of the input. -/
theorem parse_nines :
    ∃ fault, parse [String.ofList (ruleLine (List.replicate 4301 '9'))] "A" "R" = .error fault ∧
      fault.kind = none ∧ ¬fault.OfInput := by
  have proper : ∀ c ∈ List.replicate 4301 '9', c.isDigit = true := by
    intro c member
    obtain rfl := List.eq_of_mem_replicate member
    rfl
  have long : digitLimit < (List.replicate 4301 '9').length := by
    rw [List.length_replicate]
    decide
  obtain ⟨fault, first, tooLong⟩ := (overlong_ruleLine proper long).firstFault "A" "R"
  exact ⟨fault, parse_eq_error_iff.mpr first, tooLong.kind_eq_none, tooLong.not_ofInput⟩

end Listing

end PartSorting
