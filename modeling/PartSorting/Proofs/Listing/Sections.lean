import PartSorting.Listing
import PartSorting.Proofs.Part.Grammar
import PartSorting.Proofs.Table.Collision
import PartSorting.Proofs.Workflow.Grammar

/-! # The sections of a listing

The lines of a listing that are not blank fall into two sections: those up to the first blank line
after a workflow, and those behind it.  Reading a listing is reading the first section as
workflows and then the second as parts, and making the table when both have been read.  Blank
lines matter only between two lines of the first section. -/

set_option autoImplicit false

namespace PartSorting

namespace Listing

def content (line : String) : String :=
  String.ofList (Text.trim line.toList)

def isBlank (line : String) : Bool :=
  line.toList.all Text.isBlank

/-- The lines from the first that is not blank up to the next blank one. -/
def workflowLines (lines : List String) : List String :=
  (lines.dropWhile isBlank).takeWhile fun line => !isBlank line

/-- The lines behind those of the workflows that are not blank. -/
def partLines (lines : List String) : List String :=
  ((lines.dropWhile isBlank).dropWhile fun line => !isBlank line).filter fun line => !isBlank line

theorem trim_eq_nil_iff {line : String} :
    Text.trim line.toList = [] ↔ isBlank line = true := by
  rw [Text.trim_eq_nil_iff, isBlank, List.all_eq_true]

theorem trimmed_content_iff {text : List Char} {line : String} :
    Text.Trimmed text (content line).toList ↔ Text.Trimmed text line.toList := by
  rw [Text.trimmed_iff, Text.trimmed_iff, content, String.toList_ofList, Text.trim_trim]

theorem parse_content_workflow {line : String} {workflow : Workflow} :
    Workflow.parse (content line) = .ok workflow ↔ Workflow.parse line = .ok workflow := by
  simp only [Workflow.parse_eq_ok_iff, trimmed_content_iff]

theorem parse_content_part {line : String} {part : Part} :
    Part.parse (content line) = .ok part ↔ Part.parse line = .ok part := by
  simp only [Part.parse_eq_ok_iff, trimmed_content_iff]

theorem readLine_of_isBlank {line : String} (blank : isBlank line = true) (progress : Progress) :
    readLine progress line =
      .ok { progress with inParts := progress.inParts || !progress.workflows.isEmpty } := by
  simp only [readLine, trim_eq_nil_iff.mpr blank, if_true]

theorem readLine_inParts {line : String} (said : isBlank line = false)
    (workflows : List Workflow) (parts : List Part) :
    readLine ⟨workflows, parts, true⟩ line = do
      let part ← Part.parse (content line)
      return ⟨workflows, parts ++ [part], true⟩ := by
  have notEmpty : Text.trim line.toList ≠ [] := by
    simp [ne_eq, trim_eq_nil_iff, said]
  simp only [readLine, notEmpty, if_false, if_true]
  rfl

theorem readLine_inWorkflows {line : String} (said : isBlank line = false)
    (workflows : List Workflow) (parts : List Part) :
    readLine ⟨workflows, parts, false⟩ line = do
      let workflow ← Workflow.parse (content line)
      return ⟨workflows ++ [workflow], parts, false⟩ := by
  have notEmpty : Text.trim line.toList ≠ [] := by
    simp [ne_eq, trim_eq_nil_iff, said]
  simp only [readLine, notEmpty, if_false, Bool.false_eq_true]
  rfl

theorem foldlM_readLine_blank {lines : List String} (blank : ∀ line ∈ lines, isBlank line = true) :
    lines.foldlM readLine ⟨[], [], false⟩ = .ok ⟨[], [], false⟩ := by
  induction lines with
  | nil => rfl
  | cons line lines ih =>
      obtain ⟨blankHere, blankLater⟩ := List.forall_mem_cons.mp blank
      rw [List.foldlM_cons, readLine_of_isBlank blankHere]
      exact ih blankLater

theorem foldlM_readLine_inWorkflows {lines : List String}
    (said : ∀ line ∈ lines, isBlank line = false) (read : List Workflow) (parts : List Part) :
    lines.foldlM readLine ⟨read, parts, false⟩ = do
      let workflows ← lines.mapM fun line => Workflow.parse (content line)
      return ⟨read ++ workflows, parts, false⟩ := by
  induction lines generalizing read with
  | nil =>
      show _ = Except.ok (Progress.mk (read ++ []) parts false)
      rw [List.append_nil]
      rfl
  | cons line lines ih =>
      obtain ⟨saidHere, saidLater⟩ := List.forall_mem_cons.mp said
      rw [List.foldlM_cons, readLine_inWorkflows saidHere, List.mapM_cons]
      simp only [bind_assoc, pure_bind, ih saidLater, List.append_assoc, List.singleton_append]

/-- In the section of the parts blank lines do not count. -/
theorem foldlM_readLine_inParts (lines : List String) (workflows : List Workflow)
    (read : List Part) :
    lines.foldlM readLine ⟨workflows, read, true⟩ = do
      let parts ← (lines.filter fun line => !isBlank line).mapM fun line =>
        Part.parse (content line)
      return ⟨workflows, read ++ parts, true⟩ := by
  induction lines generalizing read with
  | nil =>
      show _ = Except.ok (Progress.mk workflows (read ++ []) true)
      rw [List.append_nil]
      rfl
  | cons line lines ih =>
      cases blank : isBlank line with
      | true =>
          rw [List.foldlM_cons, readLine_of_isBlank blank,
            List.filter_cons_of_neg (by simp [blank])]
          exact ih read
      | false =>
          rw [List.foldlM_cons, readLine_inParts blank, List.filter_cons_of_pos (by simp [blank]),
            List.mapM_cons]
          simp only [bind_assoc, pure_bind, ih, List.append_assoc, List.singleton_append]

/-- A listing is blank lines, the workflows, and the parts behind a blank line. -/
theorem exists_sections (lines : List String) :
    ∃ opening rest, (∀ line ∈ opening, isBlank line = true) ∧
      (∀ line ∈ workflowLines lines, isBlank line = false) ∧
      lines = opening ++ (workflowLines lines ++ rest) ∧
      partLines lines = (rest.filter fun line => !isBlank line) ∧
      (rest = [] ∨ ∃ separator behind, rest = separator :: behind ∧ isBlank separator = true ∧
        workflowLines lines ≠ []) := by
  refine ⟨lines.takeWhile isBlank, (lines.dropWhile isBlank).dropWhile fun line => !isBlank line,
    fun _ => List.mem_takeWhile_imp, ?_, ?_, rfl, ?_⟩
  · intro line member
    simpa using List.mem_takeWhile_imp member
  · rw [workflowLines, List.takeWhile_append_dropWhile, List.takeWhile_append_dropWhile]
  · cases behind : (lines.dropWhile isBlank).dropWhile fun line => !isBlank line with
    | nil => exact .inl rfl
    | cons separator rest =>
        have stops := List.head?_dropWhile_not (fun line => !isBlank line)
          (lines.dropWhile isBlank)
        rw [behind] at stops
        refine .inr ⟨separator, rest, rfl, by simpa using stops, ?_⟩
        cases remaining : lines.dropWhile isBlank with
        | nil => simp [remaining] at behind
        | cons first more =>
            have starts := List.head?_dropWhile_not isBlank lines
            rw [remaining] at starts
            have said : isBlank first = false := by simpa using starts
            rw [workflowLines, remaining, List.takeWhile_cons_of_pos (by simp [said])]
            exact List.cons_ne_nil _ _

/-- To read a listing is to read its sections one after the other and then to make the table. -/
theorem parse_eq (lines : List String) (accept reject : String) :
    parse lines accept reject = do
      let workflows ← (workflowLines lines).mapM fun line => Workflow.parse (content line)
      let parts ← (partLines lines).mapM fun line => Part.parse (content line)
      let table ← Table.ofWorkflows workflows accept reject
      return ⟨table, parts⟩ := by
  obtain ⟨opening, rest, blank, said, divided, parts, ends⟩ := exists_sections lines
  have read : lines.foldlM readLine ⟨[], [], false⟩ =
      ((workflowLines lines).mapM fun line => Workflow.parse (content line)) >>= fun workflows =>
        rest.foldlM readLine ⟨workflows, [], false⟩ := by
    conv_lhs => rw [divided]
    rw [List.foldlM_append, foldlM_readLine_blank blank]
    show (workflowLines lines ++ rest).foldlM readLine ⟨[], [], false⟩ = _
    rw [List.foldlM_append, foldlM_readLine_inWorkflows said]
    simp only [bind_assoc, pure_bind, List.nil_append]
  rw [parse, read, parts, bind_assoc]
  cases outcome : (workflowLines lines).mapM fun line => Workflow.parse (content line) with
  | error fault => rfl
  | ok workflows =>
      show rest.foldlM readLine ⟨workflows, [], false⟩ >>= _ = _
      obtain rfl | ⟨separator, behind, rfl, isSeparator, notEmpty⟩ := ends
      · rfl
      · have some : (false || !workflows.isEmpty) = true := by
          have lengths := (Outcome.mapM_eq_ok_iff.mp outcome).length_eq
          rw [← List.length_pos_iff, lengths, List.length_pos_iff] at notEmpty
          simpa using notEmpty
        rw [List.foldlM_cons, readLine_of_isBlank isSeparator,
          List.filter_cons_of_neg (by simp [isSeparator])]
        show behind.foldlM readLine ⟨workflows, [], false || !workflows.isEmpty⟩ >>= _ = _
        rw [some, foldlM_readLine_inParts]
        simp only [bind_assoc, pure_bind, List.nil_append]
        rfl

structure Says (lines : List String) (workflows : List Workflow) (parts : List Part) : Prop where
  workflows : List.Forall₂ (fun line workflow => Workflow.parse (content line) = .ok workflow)
    (workflowLines lines) workflows
  parts : List.Forall₂ (fun line part => Part.parse (content line) = .ok part)
    (partLines lines) parts

/-- What is reported of lines that are no listing: the fault of the first line that cannot be
read, and only when there is none a collision of names. -/
inductive FirstFault (lines : List String) (accept reject : String) : Fault → Prop where
  | workflow (before : List String) (line : String) (after : List String)
      (split : workflowLines lines = before ++ line :: after)
      (earlier : ∀ other ∈ before, ∃ workflow, Workflow.parse (content other) = .ok workflow)
      (fault : Fault) (failed : Workflow.parse (content line) = .error fault) :
      FirstFault lines accept reject fault
  | part (all : ∀ line ∈ workflowLines lines,
        ∃ workflow, Workflow.parse (content line) = .ok workflow)
      (before : List String) (line : String) (after : List String)
      (split : partLines lines = before ++ line :: after)
      (earlier : ∀ other ∈ before, ∃ part, Part.parse (content other) = .ok part)
      (fault : Fault) (failed : Part.parse (content line) = .error fault) :
      FirstFault lines accept reject fault
  | table (workflows : List Workflow) (parts : List Part) (said : Says lines workflows parts)
      (fault : Fault) (collision : Table.Collision workflows accept reject fault) :
      FirstFault lines accept reject fault

variable {lines : List String} {accept reject : String}

theorem parse_eq_ok_iff {listing : Listing} :
    parse lines accept reject = .ok listing ↔
      ∃ workflows, Says lines workflows listing.parts ∧
        Table.ofWorkflows workflows accept reject = .ok listing.table := by
  simp only [parse_eq, Outcome.bind_eq_ok_iff, Outcome.mapM_eq_ok_iff]
  constructor
  · rintro ⟨workflows, workflowsRead, parts, partsRead, table, made, same⟩
    obtain rfl := Except.ok.inj same
    exact ⟨workflows, ⟨workflowsRead, partsRead⟩, made⟩
  · rintro ⟨workflows, ⟨workflowsRead, partsRead⟩, made⟩
    exact ⟨workflows, workflowsRead, listing.parts, partsRead, listing.table, made, rfl⟩

theorem parse_eq_error_iff {fault : Fault} :
    parse lines accept reject = .error fault ↔ FirstFault lines accept reject fault := by
  rw [parse_eq]
  constructor
  · intro failed
    obtain failed | ⟨workflows, workflowsRead, failed⟩ := Outcome.bind_error failed
    · obtain ⟨before, line, after, split, earlier, here⟩ := Outcome.mapM_eq_error_iff.mp failed
      exact .workflow before line after split earlier fault here
    · obtain failed | ⟨parts, partsRead, failed⟩ := Outcome.bind_error failed
      · obtain ⟨before, line, after, split, earlier, here⟩ := Outcome.mapM_eq_error_iff.mp failed
        have all := Outcome.exists_mapM_ok_iff.mp ⟨workflows, workflowsRead⟩
        exact .part all before line after split earlier fault here
      · obtain failed | ⟨_, _, impossible⟩ := Outcome.bind_error failed
        · exact .table workflows parts
            ⟨Outcome.mapM_eq_ok_iff.mp workflowsRead, Outcome.mapM_eq_ok_iff.mp partsRead⟩ fault
            (Table.ofWorkflows_eq_error_iff.mp failed)
        · contradiction
  · intro first
    cases first with
    | workflow before line after split earlier fault failed =>
        rw [Outcome.mapM_eq_error_iff.mpr ⟨before, line, after, split, earlier, failed⟩]
        rfl
    | part all before line after split earlier fault failed =>
        obtain ⟨workflows, workflowsRead⟩ := Outcome.exists_mapM_ok_iff.mpr all
        rw [workflowsRead,
          Outcome.mapM_eq_error_iff.mpr ⟨before, line, after, split, earlier, failed⟩]
        rfl
    | table workflows parts said fault collision =>
        rw [Outcome.mapM_eq_ok_iff.mpr said.workflows, Outcome.mapM_eq_ok_iff.mpr said.parts]
        show Table.ofWorkflows workflows accept reject >>= _ = _
        rw [Table.ofWorkflows_eq_error_iff.mpr collision]
        rfl

theorem takeWhile_append_of_head {p : String → Bool} {rest : List String}
    (stops : ∀ line ∈ rest.head?, p line = false) (lines : List String) :
    (lines ++ rest).takeWhile p = lines.takeWhile p := by
  have nothing : rest.takeWhile p = [] := by
    cases rest with
    | nil => rfl
    | cons line rest => exact List.takeWhile_cons_of_neg (by simp [stops line rfl])
  rw [List.takeWhile_append]
  split
  · rename_i all
    rw [nothing, List.append_nil]
    exact ((List.takeWhile_prefix p).eq_of_length all).symm
  · rfl

theorem dropWhile_append_of_head {p : String → Bool} {rest : List String}
    (stops : ∀ line ∈ rest.head?, p line = false) (lines : List String) :
    (lines ++ rest).dropWhile p = lines.dropWhile p ++ rest := by
  have everything : rest.dropWhile p = rest := by
    cases rest with
    | nil => rfl
    | cons line rest => exact List.dropWhile_cons_of_neg (by simp [stops line rfl])
  rw [List.dropWhile_append]
  split
  · rename_i none
    rw [everything, List.isEmpty_iff.mp none, List.nil_append]
  · rfl

theorem sections_append {opening rest : List String}
    (begun : ∃ line ∈ opening, isBlank line = false)
    (ends : ∀ line ∈ rest.head?, isBlank line = true) :
    workflowLines (opening ++ rest) = workflowLines opening ∧
      partLines (opening ++ rest) =
        partLines opening ++ rest.filter fun line => !isBlank line := by
  have behind : (opening ++ rest).dropWhile isBlank = opening.dropWhile isBlank ++ rest := by
    rw [List.dropWhile_append, if_neg]
    obtain ⟨line, member, said⟩ := begun
    rw [List.isEmpty_iff, List.dropWhile_eq_nil_iff]
    intro blank
    simp [blank line member] at said
  have stops : ∀ line ∈ rest.head?, (!isBlank line) = false := by
    intro line first
    rw [ends line first]
    rfl
  rw [workflowLines, partLines, behind, takeWhile_append_of_head stops,
    dropWhile_append_of_head stops, List.filter_append]
  exact ⟨rfl, rfl⟩

structure SameSections (lines others : List String) : Prop where
  workflows : workflowLines lines = workflowLines others
  parts : partLines lines = partLines others

namespace SameSections

variable {lines others : List String}

theorem parse_eq (same : SameSections lines others) (accept reject : String) :
    parse lines accept reject = parse others accept reject := by
  rw [Listing.parse_eq, Listing.parse_eq, same.workflows, same.parts]

theorem of_blank {blanks : List String} (blank : ∀ line ∈ blanks, isBlank line = true)
    (lines : List String) : SameSections (blanks ++ lines) lines := by
  constructor
  · rw [workflowLines, workflowLines, List.dropWhile_append_of_pos blank]
  · rw [partLines, partLines, List.dropWhile_append_of_pos blank]

theorem append {opening : List String} (begun : ∃ line ∈ opening, isBlank line = false)
    (ends : ∀ line ∈ lines.head?, isBlank line = true)
    (alsoEnds : ∀ line ∈ others.head?, isBlank line = true)
    (same : lines.filter (fun line => !isBlank line) = others.filter fun line => !isBlank line) :
    SameSections (opening ++ lines) (opening ++ others) := by
  obtain ⟨workflows, parts⟩ := sections_append begun ends
  obtain ⟨alsoWorkflows, alsoParts⟩ := sections_append begun alsoEnds
  constructor
  · rw [workflows, alsoWorkflows]
  · rw [parts, alsoParts, same]

end SameSections

/-- A place in a listing that is not between two lines of the workflows. -/
inductive Loose (before after : List String) : Prop where
  | opening (blank : ∀ line ∈ before, isBlank line = true)
  | beforeBlank (blank : ∀ line ∈ after.head?, isBlank line = true)
  | behindSeparator (opening : List String) (separator : String) (rest : List String)
      (split : before = opening ++ separator :: rest)
      (begun : ∃ line ∈ opening, isBlank line = false) (blank : isBlank separator = true)

theorem filter_blanks {blanks : List String} (blank : ∀ line ∈ blanks, isBlank line = true) :
    blanks.filter (fun line => !isBlank line) = [] := by
  rw [List.filter_eq_nil_iff]
  intro line member
  simp [blank line member]

theorem sameSections_opening {before blanks : List String}
    (blankBefore : ∀ line ∈ before, isBlank line = true)
    (blank : ∀ line ∈ blanks, isBlank line = true) (after : List String) :
    SameSections (before ++ blanks ++ after) (before ++ after) := by
  have long := SameSections.of_blank (List.forall_mem_append.mpr ⟨blankBefore, blank⟩) after
  have short := SameSections.of_blank blankBefore after
  exact ⟨long.workflows.trans short.workflows.symm, long.parts.trans short.parts.symm⟩

theorem Loose.sameSections {before blanks after : List String} (loose : Loose before after)
    (blank : ∀ line ∈ blanks, isBlank line = true) :
    SameSections (before ++ blanks ++ after) (before ++ after) := by
  cases loose with
  | opening blankBefore => exact sameSections_opening blankBefore blank after
  | beforeBlank ends =>
      by_cases begun : ∃ line ∈ before, isBlank line = false
      · have endsLong : ∀ line ∈ (blanks ++ after).head?, isBlank line = true := by
          cases blanks with
          | nil => exact ends
          | cons first more =>
              intro line isFirst
              obtain rfl := Option.some.inj isFirst
              exact blank first List.mem_cons_self
        rw [List.append_assoc]
        refine .append begun endsLong ends ?_
        rw [List.filter_append, filter_blanks blank, List.nil_append]
      · have blankBefore : ∀ line ∈ before, isBlank line = true := by
          intro line member
          by_contra said
          exact begun ⟨line, member, by simpa using said⟩
        exact sameSections_opening blankBefore blank after
  | behindSeparator opening separator rest split begun isSeparator =>
      have ends : ∀ more : List String,
          ∀ line ∈ (separator :: more).head?, isBlank line = true := by
        intro more line isFirst
        obtain rfl := Option.some.inj isFirst
        exact isSeparator
      have long : before ++ blanks ++ after =
          opening ++ separator :: (rest ++ blanks ++ after) := by simp [split]
      have short : before ++ after = opening ++ separator :: (rest ++ after) := by simp [split]
      rw [long, short]
      refine .append begun (ends _) (ends _) ?_
      simp only [List.filter_cons, List.filter_append, filter_blanks blank, List.append_nil]

/-- A listing is read exactly if every line of its sections is and the names of the workflows are
distinct and no sinks; otherwise the first fault is reported.  Blank lines at loose places do not
count. -/
theorem parse_sectioned (lines : List String) (accept reject : String) :
    ((∃ listing, parse lines accept reject = .ok listing) ↔
      ∃ workflows parts, Says lines workflows parts ∧ (workflows.map Workflow.name).Nodup ∧
        accept ∉ workflows.map Workflow.name ∧ reject ∉ workflows.map Workflow.name) ∧
    (∀ listing, parse lines accept reject = .ok listing ↔
      ∃ workflows, Says lines workflows listing.parts ∧
        Table.ofWorkflows workflows accept reject = .ok listing.table ∧
        listing.table.names = workflows.map Workflow.name) ∧
    (∀ fault, parse lines accept reject = .error fault ↔
      FirstFault lines accept reject fault) ∧
    ∀ before blanks after, Loose before after → (∀ line ∈ blanks, isBlank line = true) →
      lines = before ++ blanks ++ after →
      parse lines accept reject = parse (before ++ after) accept reject := by
  refine ⟨?_, ?_, fun _ => parse_eq_error_iff, ?_⟩
  · simp only [parse_eq_ok_iff]
    constructor
    · rintro ⟨listing, workflows, said, made⟩
      exact ⟨workflows, listing.parts, said, Table.exists_ofWorkflows_iff.mp ⟨_, made⟩⟩
    · rintro ⟨workflows, parts, said, free⟩
      obtain ⟨table, made⟩ := Table.exists_ofWorkflows_iff.mpr free
      exact ⟨⟨table, parts⟩, workflows, said, made⟩
  · intro listing
    rw [parse_eq_ok_iff]
    constructor
    · rintro ⟨workflows, said, made⟩
      exact ⟨workflows, said, made, Table.names_of_ofWorkflows made⟩
    · rintro ⟨workflows, said, made, _⟩
      exact ⟨workflows, said, made⟩
  · rintro before blanks after loose blank rfl
    exact (loose.sameSections blank).parse_eq accept reject

def scatteredLines : List String :=
  [" ", "in\x7bx<5:R,A\x7d", "\tout\x7bA\x7d", "\u00a0", "", "\x7bx=1,m=2,a=3,s=4\x7d ", "",
    "\x7bs=1,a=2,m=3,x=4\x7d"]

theorem says_scatteredLines : Says scatteredLines
    [⟨"in", [⟨⟨.x, .lessThan, 5⟩, "R"⟩], "A"⟩, ⟨"out", [], "A"⟩] [⟨1, 2, 3, 4⟩, ⟨4, 3, 2, 1⟩] := by
  have workflows : workflowLines scatteredLines =
      ["in\x7bx<5:R,A\x7d", "\tout\x7bA\x7d"] := by rfl
  have parts : partLines scatteredLines =
      ["\x7bx=1,m=2,a=3,s=4\x7d ", "\x7bs=1,a=2,m=3,x=4\x7d"] := by rfl
  refine ⟨?_, ?_⟩
  · rw [workflows]
    exact .cons rfl (.cons rfl .nil)
  · rw [parts]
    exact .cons rfl (.cons rfl .nil)

/-- Scattered lines are a listing, also without the blank line between the parts; of a name that
stands twice and a part that lacks ratings the part is reported. -/
theorem parse_sectioned_scattered :
    (∃ listing, parse scatteredLines "A" "R" = .ok listing ∧
      listing.table.names = ["in", "out"] ∧ listing.parts = [⟨1, 2, 3, 4⟩, ⟨4, 3, 2, 1⟩]) ∧
    parse ["in\x7bA\x7d", "in\x7bR\x7d", "", "\x7bx=1\x7d"] "A" "R" =
      .error (.record (.missingAttributes ["m", "a", "s"] "\x7bx=1\x7d")) ∧
    Loose (scatteredLines.take 6) (scatteredLines.drop 7) ∧
    parse scatteredLines "A" "R" =
      parse (scatteredLines.take 6 ++ scatteredLines.drop 7) "A" "R" := by
  obtain ⟨_, gives, _, blanks⟩ := parse_sectioned scatteredLines "A" "R"
  obtain ⟨_, _, fails, _⟩ :=
    parse_sectioned ["in\x7bA\x7d", "in\x7bR\x7d", "", "\x7bx=1\x7d"] "A" "R"
  have loose : Loose (scatteredLines.take 6) (scatteredLines.drop 7) :=
    .behindSeparator (scatteredLines.take 3) "\u00a0" ["", "\x7bx=1,m=2,a=3,s=4\x7d "] rfl
      ⟨"in\x7bx<5:R,A\x7d", by decide, by rfl⟩ (by rfl)
  obtain ⟨table, made⟩ : ∃ table, Table.ofWorkflows
      [⟨"in", [⟨⟨.x, .lessThan, 5⟩, "R"⟩], "A"⟩, ⟨"out", [], "A"⟩] "A" "R" = .ok table :=
    Table.exists_ofWorkflows_iff.mpr ⟨by decide, by decide, by decide⟩
  have names := Table.names_of_ofWorkflows made
  have parsed := (gives ⟨table, _⟩).mpr ⟨_, says_scatteredLines, made, names⟩
  have bothRead : ∀ line ∈ workflowLines ["in\x7bA\x7d", "in\x7bR\x7d", "", "\x7bx=1\x7d"],
      ∃ workflow, Workflow.parse (content line) = .ok workflow :=
    List.forall_mem_cons.mpr ⟨⟨⟨"in", [], "A"⟩, rfl⟩, List.forall_mem_singleton.mpr
      ⟨⟨"in", [], "R"⟩, rfl⟩⟩
  have first : FirstFault ["in\x7bA\x7d", "in\x7bR\x7d", "", "\x7bx=1\x7d"] "A" "R"
      (.record (.missingAttributes ["m", "a", "s"] "\x7bx=1\x7d")) :=
    .part bothRead [] "\x7bx=1\x7d" [] rfl (fun _ none => absurd none List.not_mem_nil) _ rfl
  have same := blanks (scatteredLines.take 6) [""] (scatteredLines.drop 7) loose
    (List.forall_mem_singleton.mpr rfl) rfl
  exact ⟨⟨_, parsed, names, rfl⟩, (fails _).mpr first, loose, same⟩

end Listing

end PartSorting
