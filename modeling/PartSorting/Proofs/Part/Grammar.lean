import Mathlib.Data.List.Induction
import Mathlib.Data.List.Nodup
import Mathlib.Data.List.Perm.Basic
import PartSorting.Part.Parser
import PartSorting.Proofs.Condition.Grammar

/-! # The grammar of records

A record has, in braces, one field for each attribute, in any order.  A text of any other form has
a first defect: in its braces, in the fields from left to right, and at last in the attributes that
are missing.  While the fields are read, the ratings known are those of the fields read so far. -/

set_option autoImplicit false

namespace PartSorting.Part

def Gives (entry : Attribute × Int) (field : List Char) : Prop :=
  ∃ numeral, field = entry.1.letter :: '=' :: numeral ∧ Text.Denotes numeral entry.2

/-- There is one field for each attribute, in any order, with the rating of the part. -/
def ListedBy (part : Part) (fields : List (List Char)) : Prop :=
  ∃ attrs : List Attribute, attrs.Perm Attribute.all ∧
    List.Forall₂ (fun i field => Gives (i, part.get i) field) attrs fields

def SpeltBy (part : Part) (text : List Char) : Prop :=
  ∃ fields, text = '\x7b' :: Text.join ',' fields ++ ['\x7d'] ∧ part.ListedBy fields

structure Fields (text : String) (fields : List (List Char)) : Prop where
  trimmed : Text.Trimmed ('\x7b' :: Text.join ',' fields ++ ['\x7d']) text.toList
  notEmpty : fields ≠ []
  clean : ∀ field ∈ fields, ',' ∉ field

inductive FieldDefect (text : String) (given : List Attribute) (field : List Char) :
    Fault → Prop where
  | noEquals (absent : '=' ∉ field) :
      FieldDefect text given field (.record (.noEquals (String.ofList field)))
  | noAttribute (numeral : List Char) (split : field = '=' :: numeral) :
      FieldDefect text given field (.record (.noAttribute (String.ofList field)))
  | unknown (tag numeral : List Char) (split : field = tag ++ '=' :: numeral) (clean : '=' ∉ tag)
      (notEmpty : tag ≠ []) (noLetter : ∀ i : Attribute, tag ≠ [i.letter]) :
      FieldDefect text given field (.unknownAttribute (String.ofList tag))
  | duplicate (i : Attribute) (numeral : List Char) (split : field = i.letter :: '=' :: numeral)
      (again : i ∈ given) :
      FieldDefect text given field
        (.record (.duplicateAttribute (String.ofList [i.letter]) text))
  | value (i : Attribute) (numeral : List Char) (split : field = i.letter :: '=' :: numeral)
      (fresh : i ∉ given) (fault : Fault)
      (defect : Text.NumeralDefect (.record (.badValue (String.ofList field))) numeral fault) :
      FieldDefect text given field fault

inductive Defect (text : String) : Fault → Prop where
  | braces (notBraced : ∀ body, ¬Text.Trimmed ('\x7b' :: body ++ ['\x7d']) text.toList) :
      Defect text (.record (.noBraces text))
  | field (before : List (List Char)) (field : List Char) (after : List (List Char))
      (fields : Fields text (before ++ field :: after)) (entries : List (Attribute × Int))
      (earlier : List.Forall₂ Gives entries before) (distinct : (entries.map Prod.fst).Nodup)
      (fault : Fault) (defect : FieldDefect text (entries.map Prod.fst) field fault) :
      Defect text fault
  | missing (all : List (List Char)) (fields : Fields text all) (entries : List (Attribute × Int))
      (given : List.Forall₂ Gives entries all) (distinct : (entries.map Prod.fst).Nodup)
      (incomplete : ∃ i, i ∉ entries.map Prod.fst) :
      Defect text (.record (.missingAttributes
        ((Attribute.all.filter fun i => i ∉ entries.map Prod.fst).map fun i =>
          String.ofList [i.letter]) text))

variable {text : String} {known result : PerAttribute (Option Int)}

theorem Gives.ordinary {entry : Attribute × Int} {field : List Char} (gives : Gives entry field) :
    ∀ c ∈ field, Text.Ordinary c := by
  obtain ⟨numeral, rfl, denoted⟩ := gives
  intro c member
  simp only [List.mem_cons] at member
  rcases member with rfl | rfl | inNumeral
  · cases entry.1 <;> decide
  · decide
  · exact denoted.ordinary c inNumeral

/-- A field without a defect gives the rating of a new attribute. -/
theorem defect_or_gives (text : String) (given : List Attribute) (field : List Char) :
    (∃ fault, FieldDefect text given field fault) ∨
      ∃ entry, Gives entry field ∧ entry.1 ∉ given := by
  by_cases present : '=' ∈ field
  · obtain ⟨tag, numeral, rfl, clean⟩ := List.eq_append_cons_of_mem present
    by_cases letter : ∃ i : Attribute, tag = [i.letter]
    · obtain ⟨i, rfl⟩ := letter
      by_cases again : i ∈ given
      · exact .inl ⟨_, .duplicate i numeral rfl again⟩
      · obtain ⟨n, denoted⟩ | ⟨fault, defect⟩ := Text.denotes_or_defect numeral
          (.record (.badValue (String.ofList (i.letter :: '=' :: numeral))))
        · exact .inr ⟨(i, n), ⟨numeral, rfl, denoted⟩, again⟩
        · exact .inl ⟨fault, .value i numeral rfl again fault defect⟩
    · by_cases empty : tag = []
      · subst empty
        exact .inl ⟨_, .noAttribute numeral rfl⟩
      · exact .inl ⟨_, .unknown tag numeral rfl clean empty (not_exists.mp letter)⟩
  · exact .inl ⟨_, .noEquals present⟩

/-- The ratings known are those that the entries give, one for each of their attributes. -/
structure Knows (known : PerAttribute (Option Int)) (entries : List (Attribute × Int)) : Prop where
  distinct : (entries.map Prod.fst).Nodup
  get_eq_some_iff : ∀ i n, known.get i = some n ↔ (i, n) ∈ entries

namespace Knows

variable {entries : List (Attribute × Int)}

theorem nothing : Knows (.const none) [] where
  distinct := List.nodup_nil
  get_eq_some_iff i n := by simp

theorem get_eq_none_iff (knows : Knows known entries) {i : Attribute} :
    known.get i = none ↔ i ∉ entries.map Prod.fst := by
  rw [Option.eq_none_iff_forall_ne_some, List.mem_map, not_exists]
  constructor
  · rintro unknown ⟨j, n⟩ ⟨member, rfl⟩
    exact unknown n ((knows.get_eq_some_iff j n).mpr member)
  · intro absent n found
    exact absent (i, n) ⟨(knows.get_eq_some_iff i n).mp found, rfl⟩

theorem unique (knows : Knows known entries) (again : Knows result entries) : known = result := by
  apply PerAttribute.ext_get
  intro i
  apply Option.ext
  intro n
  exact (knows.get_eq_some_iff i n).trans (again.get_eq_some_iff i n).symm

theorem set (knows : Knows known entries) {entry : Attribute × Int}
    (fresh : entry.1 ∉ entries.map Prod.fst) :
    Knows (known.set entry.1 (some entry.2)) (entries ++ [entry]) where
  distinct := by
    rw [List.map_append, List.map_singleton, ← List.concat_eq_append]
    exact knows.distinct.concat fresh
  get_eq_some_iff i n := by
    rw [PerAttribute.get_set, List.mem_append, List.mem_singleton, ← knows.get_eq_some_iff i n]
    by_cases same : i = entry.1
    · subst same
      simp [knows.get_eq_none_iff.mpr fresh, Prod.ext_iff, eq_comm]
    · simp [same, Prod.ext_iff]

theorem of_distinct (distinct : (entries.map Prod.fst).Nodup) : ∃ known, Knows known entries := by
  induction entries using List.reverseRecOn with
  | nil => exact ⟨_, nothing⟩
  | append_singleton entries entry ih =>
      rw [List.map_append, List.map_singleton, List.nodup_append] at distinct
      obtain ⟨earlier, _, apart⟩ := distinct
      obtain ⟨known, knows⟩ := ih earlier
      exact ⟨_, knows.set fun again => apart _ again _ List.mem_cons_self rfl⟩

end Knows

theorem readField_of_split {tag numeral field : List Char} (split : field = tag ++ '=' :: numeral)
    (clean : '=' ∉ tag) (notEmpty : tag ≠ []) :
    readField text known field = do
      let i ← Attribute.parse tag
      if (known.get i).isSome then
        .error (.record (.duplicateAttribute (String.ofList tag) text))
      else do
        let value ← Text.readInteger numeral (.record (.badValue (String.ofList field)))
        return known.set i (some value) := by
  obtain ⟨c, rest, rfl⟩ := List.exists_cons_of_ne_nil notEmpty
  rw [readField, Text.cutAt?_eq_some_iff.mpr ⟨split, clean⟩]

theorem readField_of_letter {field numeral : List Char} (i : Attribute)
    (split : field = i.letter :: '=' :: numeral) :
    readField text known field =
      if (known.get i).isSome then
        .error (.record (.duplicateAttribute (String.ofList [i.letter]) text))
      else do
        let value ← Text.readInteger numeral (.record (.badValue (String.ofList field)))
        return known.set i (some value) := by
  have clean : '=' ∉ [i.letter] := by cases i <;> decide
  have split : field = [i.letter] ++ '=' :: numeral := split
  rw [readField_of_split split clean (List.cons_ne_nil _ _), Attribute.parse_letter]
  rfl

theorem readField_of_gives {entry : Attribute × Int} {field : List Char} (gives : Gives entry field)
    (fresh : known.get entry.1 = none) :
    readField text known field = .ok (known.set entry.1 (some entry.2)) := by
  obtain ⟨numeral, split, denoted⟩ := gives
  rw [readField_of_letter entry.1 split, fresh, Text.readInteger_eq_ok_iff.mpr denoted]
  rfl

theorem readField_of_defect {entries : List (Attribute × Int)} (knows : Knows known entries)
    {field : List Char} {fault : Fault}
    (defect : FieldDefect text (entries.map Prod.fst) field fault) :
    readField text known field = .error fault := by
  cases defect with
  | noEquals absent => rw [readField, Text.cutAt?_eq_none_iff.mpr absent]
  | noAttribute numeral split =>
      have cut : Text.cutAt? '=' field = some ([], numeral) :=
        Text.cutAt?_eq_some_iff.mpr ⟨split, List.not_mem_nil⟩
      rw [readField, cut]
  | unknown tag numeral split clean notEmpty noLetter =>
      rw [readField_of_split split clean notEmpty,
        Attribute.parse_eq_error_iff.mpr ⟨noLetter, rfl⟩]
      rfl
  | duplicate i numeral split again =>
      have isKnown : (known.get i).isSome = true := by
        rw [Option.isSome_iff_ne_none]
        exact fun unknown => knows.get_eq_none_iff.mp unknown again
      rw [readField_of_letter i split, if_pos isKnown]
  | value i numeral split fresh fault defect =>
      rw [readField_of_letter i split, knows.get_eq_none_iff.mpr fresh,
        Text.readInteger_eq_error_iff.mpr defect]
      rfl

theorem readField_eq_ok_iff {entries : List (Attribute × Int)} (knows : Knows known entries)
    {field : List Char} :
    readField text known field = .ok result ↔
      ∃ entry, Gives entry field ∧ entry.1 ∉ entries.map Prod.fst ∧
        result = known.set entry.1 (some entry.2) := by
  constructor
  · intro read
    obtain ⟨fault, defect⟩ | ⟨entry, gives, fresh⟩ :=
      defect_or_gives text (entries.map Prod.fst) field
    · rw [readField_of_defect knows defect] at read
      contradiction
    · rw [readField_of_gives gives (knows.get_eq_none_iff.mpr fresh)] at read
      exact ⟨entry, gives, fresh, (Except.ok.inj read).symm⟩
  · rintro ⟨entry, gives, fresh, rfl⟩
    exact readField_of_gives gives (knows.get_eq_none_iff.mpr fresh)

theorem readField_eq_error_iff {entries : List (Attribute × Int)} (knows : Knows known entries)
    {field : List Char} {fault : Fault} :
    readField text known field = .error fault ↔
      FieldDefect text (entries.map Prod.fst) field fault := by
  refine ⟨fun failed => ?_, readField_of_defect knows⟩
  obtain ⟨other, defect⟩ | ⟨entry, gives, fresh⟩ :=
    defect_or_gives text (entries.map Prod.fst) field
  · obtain rfl := Except.error.inj ((readField_of_defect knows defect).symm.trans failed)
    exact defect
  · rw [readField_of_gives gives (knows.get_eq_none_iff.mpr fresh)] at failed
    contradiction

/-- Fields are read when each gives the rating of a new attribute, and then these are known. -/
theorem foldlM_readField_eq_ok_iff {fields : List (List Char)} {seen : List (Attribute × Int)}
    (knows : Knows known seen) :
    fields.foldlM (readField text) known = .ok result ↔
      ∃ entries, List.Forall₂ Gives entries fields ∧ Knows result (seen ++ entries) := by
  induction fields generalizing known seen with
  | nil =>
      constructor
      · intro read
        obtain rfl := Except.ok.inj read
        exact ⟨[], .nil, (List.append_nil seen).symm ▸ knows⟩
      · rintro ⟨entries, given, again⟩
        cases given
        rw [List.append_nil] at again
        exact congrArg Except.ok (knows.unique again)
  | cons field fields ih =>
      rw [List.foldlM_cons, Outcome.bind_eq_ok_iff]
      constructor
      · rintro ⟨next, read, later⟩
        obtain ⟨entry, gives, fresh, rfl⟩ := (readField_eq_ok_iff knows).mp read
        obtain ⟨entries, given, final⟩ := (ih (knows.set fresh)).mp later
        rw [List.append_assoc, List.singleton_append] at final
        exact ⟨entry :: entries, .cons gives given, final⟩
      · rintro ⟨_, all, final⟩
        obtain ⟨entry, entries, gives, given, rfl⟩ := List.forall₂_cons_right_iff.mp all
        have distinct := final.distinct
        rw [List.map_append, List.map_cons, List.nodup_middle, List.nodup_cons] at distinct
        have fresh : entry.1 ∉ seen.map Prod.fst := fun again =>
          distinct.1 (List.mem_append_left _ again)
        refine ⟨_, (readField_eq_ok_iff knows).mpr ⟨entry, gives, fresh, rfl⟩, ?_⟩
        refine (ih (knows.set fresh)).mpr ⟨entries, given, ?_⟩
        rwa [List.append_assoc, List.singleton_append]

theorem unbrace?_eq_some_iff {inner body : List Char} :
    unbrace? inner = some body ↔ inner = '\x7b' :: body ++ ['\x7d'] := by
  constructor
  · intro found
    unfold unbrace? at found
    split at found
    · obtain ⟨closed, same⟩ := Option.ite_none_right_eq_some.mp found
      obtain rfl := Option.some.inj same
      rw [List.cons_append, List.dropLast_append_getLast? _ closed]
    · contradiction
  · rintro rfl
    simp only [List.cons_append, unbrace?, List.getLast?_concat, if_true, List.dropLast_concat]

def complete (text : String) (known : PerAttribute (Option Int)) : Except Fault Part :=
  match ofKnown? known with
  | some part => .ok part
  | none => .error (.record (.missingAttributes (missing known) text))

theorem Fields.parse_eq {fields : List (List Char)} (isFields : Fields text fields) :
    parse text = fields.foldlM (readField text) (.const none) >>= complete text := by
  have cut := Text.fields_join isFields.notEmpty isFields.clean
  rw [parse, Text.trimmed_iff.mp isFields.trimmed, unbrace?_eq_some_iff.mpr rfl]
  simp only [cut]
  rfl

theorem parse_of_not_braced
    (notBraced : ∀ body, ¬Text.Trimmed ('\x7b' :: body ++ ['\x7d']) text.toList) :
    parse text = .error (.record (.noBraces text)) := by
  rw [parse]
  cases found : unbrace? (Text.trim text.toList) with
  | none => rfl
  | some body =>
      exact absurd (Text.trimmed_iff.mpr (unbrace?_eq_some_iff.mp found)) (notBraced body)

theorem braced_cases (text : String) :
    (∀ body, ¬Text.Trimmed ('\x7b' :: body ++ ['\x7d']) text.toList) ∨
      ∃ fields, Fields text fields := by
  by_cases braced : ∃ body, Text.Trimmed ('\x7b' :: body ++ ['\x7d']) text.toList
  · obtain ⟨body, trimmed⟩ := braced
    obtain ⟨notEmpty, clean, same⟩ := Text.fields_eq_iff.mp (rfl : Text.fields ',' body = _)
    exact .inr ⟨Text.fields ',' body, same ▸ trimmed, notEmpty, clean⟩
  · exact .inl (not_exists.mp braced)

theorem ofKnown?_eq_some_iff {part : Part} :
    ofKnown? known = some part ↔ ∀ i, known.get i = some (part.get i) := by
  constructor
  · intro found
    unfold ofKnown? at found
    split at found
    · obtain rfl := Option.some.inj found
      intro i
      cases i <;> rfl
    · contradiction
  · intro all
    have same : known = .ofFn fun i => some (part.get i) := by
      apply PerAttribute.ext_get
      intro i
      rw [all i, PerAttribute.get_ofFn]
    rw [same]
    rfl

theorem complete_eq_ok_iff {part : Part} :
    complete text known = .ok part ↔ ∀ i, known.get i = some (part.get i) := by
  rw [← ofKnown?_eq_some_iff, complete]
  cases ofKnown? known with
  | none => simp
  | some other => simp

theorem Knows.exists_part_iff {entries : List (Attribute × Int)} (knows : Knows known entries) :
    (∃ part : Part, ∀ i, known.get i = some (part.get i)) ↔ ∀ i, i ∈ entries.map Prod.fst := by
  constructor
  · rintro ⟨part, all⟩ i
    by_contra absent
    rw [← knows.get_eq_none_iff, all i] at absent
    contradiction
  · intro every
    refine ⟨.ofFn fun i => (known.get i).getD 0, fun i => ?_⟩
    cases found : known.get i with
    | none => exact absurd (every i) (knows.get_eq_none_iff.mp found)
    | some n => rw [PerAttribute.get_ofFn, found, Option.getD_some]

theorem Knows.complete_eq_error_iff {entries : List (Attribute × Int)}
    (knows : Knows known entries) {fault : Fault} :
    complete text known = .error fault ↔
      (∃ i, i ∉ entries.map Prod.fst) ∧ fault = .record (.missingAttributes
        ((Attribute.all.filter fun i => i ∉ entries.map Prod.fst).map fun i =>
          String.ofList [i.letter]) text) := by
  have absent : missing known =
      (Attribute.all.filter fun i => i ∉ entries.map Prod.fst).map fun i =>
        String.ofList [i.letter] := by
    rw [missing]
    congr 1
    apply List.filter_congr
    intro i _
    rw [Bool.eq_iff_iff, Option.isNone_iff_eq_none, decide_eq_true_iff, knows.get_eq_none_iff]
  rw [← not_forall, ← knows.exists_part_iff, ← absent, complete]
  simp only [← ofKnown?_eq_some_iff]
  cases ofKnown? known with
  | none => simp [eq_comm]
  | some part => simp

/-- The entries of the fields are those of a part when all ratings of the part are known. -/
theorem Knows.listedBy {entries : List (Attribute × Int)} (knows : Knows known entries)
    {part : Part} (all : ∀ i, known.get i = some (part.get i)) {fields : List (List Char)}
    (given : List.Forall₂ Gives entries fields) : part.ListedBy fields := by
  refine ⟨entries.map Prod.fst, ?_, ?_⟩
  · apply (List.perm_ext_iff_of_nodup knows.distinct (by decide)).mpr
    intro i
    refine iff_of_true ?_ (Attribute.mem_all i)
    exact List.mem_map.mpr ⟨(i, part.get i), (knows.get_eq_some_iff i _).mp (all i), rfl⟩
  · have same : ∀ entry ∈ entries, (entry.1, part.get entry.1) = id entry := by
      rintro ⟨i, n⟩ member
      have known := (knows.get_eq_some_iff i n).mpr member
      rw [all i] at known
      exact Prod.ext rfl (Option.some.inj known)
    have rated := (List.map_congr_left same).trans (List.map_id entries)
    rw [← rated, List.forall₂_map_left_iff] at given
    exact List.forall₂_map_left_iff.mpr given

theorem knows_all {attrs : List Attribute} (perm : attrs.Perm Attribute.all) (part : Part) :
    Knows (.ofFn fun i => some (part.get i)) (attrs.map fun i => (i, part.get i)) where
  distinct := by
    rw [List.map_map]
    show (attrs.map id).Nodup
    rw [List.map_id]
    exact perm.nodup_iff.mpr (by decide)
  get_eq_some_iff i n := by
    have member : i ∈ attrs := perm.mem_iff.mpr (Attribute.mem_all i)
    rw [PerAttribute.get_ofFn, Option.some.injEq, List.mem_map]
    constructor
    · rintro rfl
      exact ⟨i, member, rfl⟩
    · rintro ⟨j, _, same⟩
      obtain ⟨rfl, rfl⟩ := Prod.mk.inj same
      rfl

theorem Fields.parse_eq_ok_iff {fields : List (List Char)} (isFields : Fields text fields)
    {part : Part} : parse text = .ok part ↔ part.ListedBy fields := by
  rw [isFields.parse_eq]
  constructor
  · intro parsed
    obtain ⟨known, read, completed⟩ := Outcome.bind_ok parsed
    obtain ⟨entries, given, knows⟩ := (foldlM_readField_eq_ok_iff .nothing).mp read
    exact Knows.listedBy knows (complete_eq_ok_iff.mp completed) given
  · rintro ⟨attrs, perm, given⟩
    have read : fields.foldlM (readField text) (.const none) =
        .ok (.ofFn fun i => some (part.get i)) :=
      (foldlM_readField_eq_ok_iff .nothing).mpr
        ⟨_, List.forall₂_map_left_iff.mpr given, knows_all perm part⟩
    rw [read]
    rfl

theorem SpeltBy.fields {part : Part} {inner : List Char} (spelt : part.SpeltBy inner)
    (trimmed : Text.Trimmed inner text.toList) :
    ∃ fields, Fields text fields ∧ part.ListedBy fields := by
  obtain ⟨fields, rfl, listed⟩ := spelt
  refine ⟨fields, ⟨trimmed, ?_, ?_⟩, listed⟩
  · rintro rfl
    obtain ⟨attrs, perm, given⟩ := listed
    cases given
    exact absurd perm (by decide)
  · obtain ⟨attrs, _, given⟩ := listed
    intro field member
    obtain ⟨i, _, gives⟩ := exists_of_forall₂_right given member
    exact Text.not_mem_of_ordinary (by decide) gives.ordinary

theorem parse_eq_ok_iff {part : Part} :
    parse text = .ok part ↔ ∃ inner, Text.Trimmed inner text.toList ∧ part.SpeltBy inner := by
  constructor
  · intro parsed
    obtain notBraced | ⟨fields, isFields⟩ := braced_cases text
    · rw [parse_of_not_braced notBraced] at parsed
      contradiction
    · exact ⟨_, isFields.trimmed, fields, rfl, isFields.parse_eq_ok_iff.mp parsed⟩
  · rintro ⟨inner, trimmed, spelt⟩
    obtain ⟨fields, isFields, listed⟩ := spelt.fields trimmed
    exact isFields.parse_eq_ok_iff.mpr listed

theorem parse_eq_error_iff {fault : Fault} : parse text = .error fault ↔ Defect text fault := by
  constructor
  · intro failed
    obtain notBraced | ⟨fields, isFields⟩ := braced_cases text
    · obtain rfl := Except.error.inj ((parse_of_not_braced notBraced).symm.trans failed)
      exact .braces notBraced
    · rw [isFields.parse_eq] at failed
      obtain failed | ⟨known, read, failed⟩ := Outcome.bind_error failed
      · obtain ⟨before, field, after, known, rfl, read, failed⟩ :=
          Outcome.foldlM_eq_error_iff.mp failed
        obtain ⟨entries, given, knows⟩ := (foldlM_readField_eq_ok_iff .nothing).mp read
        exact .field before field after isFields entries given knows.distinct fault
          ((readField_eq_error_iff knows).mp failed)
      · obtain ⟨entries, given, knows⟩ := (foldlM_readField_eq_ok_iff .nothing).mp read
        obtain ⟨incomplete, rfl⟩ := (Knows.complete_eq_error_iff knows).mp failed
        exact .missing fields isFields entries given knows.distinct incomplete
  · intro defect
    cases defect with
    | braces notBraced => exact parse_of_not_braced notBraced
    | field before field after isFields entries earlier distinct fault defect =>
        obtain ⟨known, knows⟩ := Knows.of_distinct distinct
        have read : before.foldlM (readField text) (.const none) = .ok known :=
          (foldlM_readField_eq_ok_iff .nothing).mpr ⟨entries, earlier, knows⟩
        have failed := Outcome.foldlM_eq_error_iff.mpr
          ⟨before, field, after, known, rfl, read, readField_of_defect knows defect⟩
        rw [isFields.parse_eq, failed]
        rfl
    | missing fields isFields entries given distinct incomplete =>
        obtain ⟨known, knows⟩ := Knows.of_distinct distinct
        have read : fields.foldlM (readField text) (.const none) = .ok known :=
          (foldlM_readField_eq_ok_iff .nothing).mpr ⟨entries, given, knows⟩
        rw [isFields.parse_eq, read]
        exact knows.complete_eq_error_iff.mpr ⟨incomplete, rfl⟩

theorem ListedBy.perm {part : Part} {fields others : List (List Char)}
    (listed : part.ListedBy fields) (same : others.Perm fields) : part.ListedBy others := by
  obtain ⟨attrs, perm, given⟩ := listed
  obtain ⟨exchanged, gives, samePerm⟩ := List.perm_comp_forall₂ same given.flip
  exact ⟨exchanged, samePerm.trans perm, gives.flip⟩

theorem FieldDefect.kind {given : List Attribute} {field : List Char} {fault : Fault}
    (defect : FieldDefect text given field fault) :
    fault.kind ∈ [some .malformedRecord, some .unknownAttribute] ∨ fault.TooLong := by
  cases defect with
  | noEquals => exact .inl List.mem_cons_self
  | noAttribute => exact .inl List.mem_cons_self
  | unknown => exact .inl (List.mem_cons_of_mem _ List.mem_cons_self)
  | duplicate => exact .inl List.mem_cons_self
  | value _ _ _ _ fault defect =>
      rcases defect.cases with rfl | long
      · exact .inl List.mem_cons_self
      · exact .inr long

theorem Defect.kind {fault : Fault} (defect : Defect text fault) :
    fault.kind ∈ [some .malformedRecord, some .unknownAttribute] ∨ fault.TooLong := by
  cases defect with
  | braces => exact .inl List.mem_cons_self
  | field _ _ _ _ _ _ _ fault defect => exact defect.kind
  | missing => exact .inl List.mem_cons_self

/-- Parsing accepts exactly the texts that spell parts, whatever the order of their fields, and
refuses every other text for its first defect. -/
theorem parse_unordered (text : String) :
    (∀ part, parse text = .ok part ↔
      ∃ inner, Text.Trimmed inner text.toList ∧ part.SpeltBy inner) ∧
    (∀ fault, parse text = .error fault ↔ Defect text fault) ∧
    (∀ fault, parse text = .error fault →
      fault.kind ∈ [some .malformedRecord, some .unknownAttribute] ∨ fault.TooLong) ∧
    ∀ other fields others part, Fields text fields → Fields other others → others.Perm fields →
      (parse text = .ok part ↔ parse other = .ok part) := by
  refine ⟨fun _ => parse_eq_ok_iff, fun _ => parse_eq_error_iff, ?_, ?_⟩
  · intro fault failed
    exact (parse_eq_error_iff.mp failed).kind
  · intro other fields others part isFields areOthers exchanged
    rw [isFields.parse_eq_ok_iff, areOthers.parse_eq_ok_iff]
    exact ⟨fun listed => listed.perm exchanged, fun listed => listed.perm exchanged.symm⟩

theorem parse_unordered_exchanged :
    (parse "\x7bs=4,a=3,m=-2\n,x=01\x7d" = .ok ⟨1, -2, 3, 4⟩ ∧
      ∃ inner, Text.Trimmed inner "\x7bs=4,a=3,m=-2\n,x=01\x7d".toList ∧
        SpeltBy ⟨1, -2, 3, 4⟩ inner) ∧
    (parse "\x7bs=4,x=1=1,s=2\x7d" = .error (.record (.badValue "x=1=1")) ∧
      Defect "\x7bs=4,x=1=1,s=2\x7d" (.record (.badValue "x=1=1"))) ∧
    ((Fault.record (.badValue "x=1=1")).kind ∈ [some .malformedRecord, some .unknownAttribute] ∨
      (Fault.record (.badValue "x=1=1")).TooLong) ∧
    Fields "\x7bs=4,a=3,m=-2\n,x=01\x7d"
      ["s=4".toList, "a=3".toList, "m=-2\n".toList, "x=01".toList] ∧
    parse " \x7bx=01,m=-2\n,s=4,a=3\x7d" = .ok ⟨1, -2, 3, 4⟩ := by
  have parsed : parse "\x7bs=4,a=3,m=-2\n,x=01\x7d" = .ok ⟨1, -2, 3, 4⟩ := by rfl
  have failed : parse "\x7bs=4,x=1=1,s=2\x7d" = .error (.record (.badValue "x=1=1")) := by rfl
  have fields : Fields "\x7bs=4,a=3,m=-2\n,x=01\x7d"
      ["s=4".toList, "a=3".toList, "m=-2\n".toList, "x=01".toList] :=
    ⟨Text.trimmed_iff.mpr (by rfl), by simp, by decide⟩
  have others : Fields " \x7bx=01,m=-2\n,s=4,a=3\x7d"
      ["x=01".toList, "m=-2\n".toList, "s=4".toList, "a=3".toList] :=
    ⟨Text.trimmed_iff.mpr (by rfl), by simp, by decide⟩
  obtain ⟨accepts, _, _, exchange⟩ := parse_unordered "\x7bs=4,a=3,m=-2\n,x=01\x7d"
  obtain ⟨_, refuses, kinds, _⟩ := parse_unordered "\x7bs=4,x=1=1,s=2\x7d"
  have exchanged := exchange _ _ _ ⟨1, -2, 3, 4⟩ fields others (by decide)
  exact ⟨⟨parsed, (accepts _).mp parsed⟩, ⟨failed, (refuses _).mp failed⟩, kinds _ failed, fields,
    exchanged.mp parsed⟩

end PartSorting.Part
