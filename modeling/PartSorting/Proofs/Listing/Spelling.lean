import PartSorting.Proofs.Listing.Sections
import PartSorting.Proofs.Part.Spelling
import PartSorting.Proofs.Workflow.Spelling

/-! # Listings are read back from their lines

A listing is spelt by one line for each workflow, a blank line, and one line for each part, all of
them with blank margins.  Reading such lines gives back the workflows, as a table that keeps their
order, and the parts. -/

set_option autoImplicit false

namespace PartSorting

namespace Table

theorem workflow_of_mem {table : Table} {workflows : List Workflow}
    (listed : table.entries = workflows.map fun workflow => (workflow.name, workflow))
    {workflow : Workflow} (member : workflow ∈ workflows) :
    table.workflow workflow.name = .ok workflow := by
  obtain ⟨before, after, rfl⟩ := List.append_of_mem member
  have distinct := table.names_nodup
  rw [listed] at distinct
  simp only [List.map_append, List.map_cons, List.map_map] at distinct
  have found : table.find? workflow.name = some workflow := by
    rw [find?, listed, List.lookup_eq_some_iff]
    refine ⟨before.map fun other => (other.name, other),
      after.map fun other => (other.name, other), by simp, ?_⟩
    intro entry isBefore
    obtain ⟨other, otherMember, rfl⟩ := List.mem_map.mp isBefore
    have apart := (List.nodup_append.mp distinct).2.2 other.name
      (List.mem_map_of_mem otherMember) workflow.name List.mem_cons_self
    simpa using Ne.symm apart
  rw [Table.workflow, found]

end Table

namespace Listing

def Shows (line : String) (text : List Char) : Prop :=
  Text.Padded text line.toList

/-- The lines show the workflows, then nothing in one line, and then the parts. -/
def Spells (lines : List String) (workflows : List Workflow) (parts : List Part) : Prop :=
  ∃ workflowLines separator partLines,
    lines = workflowLines ++ separator :: partLines ∧
    List.Forall₂ (fun line workflow => Shows line workflow.chars) workflowLines workflows ∧
    Shows separator [] ∧
    List.Forall₂ (fun line part => Shows line part.chars) partLines parts

theorem isBlank_of_trimmed {line : String} {text : List Char}
    (trimmed : Text.Trimmed text line.toList) (notEmpty : text ≠ []) : isBlank line = false := by
  rw [← Bool.not_eq_true, ← trim_eq_nil_iff, Text.trimmed_iff.mp trimmed]
  exact notEmpty

theorem said_workflow {workflow : Workflow} (spellable : workflow.Spellable) {line : String}
    (shown : Shows line workflow.chars) :
    isBlank line = false ∧ Workflow.parse (content line) = .ok workflow := by
  have notEmpty : workflow.chars ≠ [] :=
    List.append_ne_nil_of_right_ne_nil _ (List.cons_ne_nil _ _)
  exact ⟨isBlank_of_trimmed (spellable.trimmed_chars shown) notEmpty,
    parse_content_workflow.mpr (spellable.parse_padded shown)⟩

theorem said_part {part : Part} (spellable : part.Spellable) {line : String}
    (shown : Shows line part.chars) :
    isBlank line = false ∧ Part.parse (content line) = .ok part :=
  ⟨isBlank_of_trimmed (Part.trimmed_chars shown) (List.cons_ne_nil _ _),
    parse_content_part.mpr (Part.parse_padded spellable shown)⟩

theorem readLine_blank {line : String} (shown : Shows line []) (progress : Progress) :
    readLine progress line =
      .ok { progress with inParts := progress.inParts || !progress.workflows.isEmpty } := by
  have trimmed : Text.Trimmed [] line.toList := ⟨shown, by simp, by simp⟩
  exact readLine_of_isBlank (trim_eq_nil_iff.mp (Text.trimmed_iff.mp trimmed)) progress

theorem foldlM_workflows {lines : List String} {workflows : List Workflow}
    (shown : List.Forall₂ (fun line workflow => Shows line workflow.chars) lines workflows)
    (spellable : ∀ workflow ∈ workflows, workflow.Spellable) (read : List Workflow)
    (parts : List Part) :
    lines.foldlM readLine ⟨read, parts, false⟩ = .ok ⟨read ++ workflows, parts, false⟩ := by
  have each := ((List.forall₂_and_left _ _).mpr ⟨spellable, shown.flip⟩).flip.imp
    fun _ _ both => said_workflow both.1 both.2
  have said : ∀ line ∈ lines, isBlank line = false := by
    intro line member
    obtain ⟨_, _, saidHere, _⟩ := exists_of_forall₂_left each member
    exact saidHere
  rw [foldlM_readLine_inWorkflows said,
    Outcome.mapM_ok_of_forall₂ (each.imp fun _ _ both => both.2)]
  rfl

theorem foldlM_parts {lines : List String} {parts : List Part}
    (shown : List.Forall₂ (fun line part => Shows line part.chars) lines parts)
    (spellable : ∀ part ∈ parts, part.Spellable) (workflows : List Workflow)
    (read : List Part) :
    lines.foldlM readLine ⟨workflows, read, true⟩ = .ok ⟨workflows, read ++ parts, true⟩ := by
  have each := ((List.forall₂_and_left _ _).mpr ⟨spellable, shown.flip⟩).flip.imp
    fun _ _ both => said_part both.1 both.2
  have said : lines.filter (fun line => !isBlank line) = lines := by
    rw [List.filter_eq_self]
    intro line member
    obtain ⟨_, _, saidHere, _⟩ := exists_of_forall₂_left each member
    rw [saidHere]
    rfl
  rw [foldlM_readLine_inParts, said, Outcome.mapM_ok_of_forall₂ (each.imp fun _ _ both => both.2)]
  rfl

/-- Reading the lines that spell a listing gives the workflows and the parts back. -/
theorem parse_of_spells {lines : List String} {workflows : List Workflow} {parts : List Part}
    {accept reject : String} (notEmpty : workflows ≠ [])
    (distinct : (workflows.map Workflow.name).Nodup)
    (notAccept : accept ∉ workflows.map Workflow.name)
    (notReject : reject ∉ workflows.map Workflow.name)
    (workflowsSpellable : ∀ workflow ∈ workflows, workflow.Spellable)
    (partsSpellable : ∀ part ∈ parts, part.Spellable) (spelt : Spells lines workflows parts) :
    ∃ listing, parse lines accept reject = .ok listing ∧
      listing.table.names = workflows.map Workflow.name ∧
      (∀ workflow ∈ workflows, listing.table.workflow workflow.name = .ok workflow) ∧
      listing.table.accept = accept ∧ listing.table.reject = reject ∧
      listing.parts = parts := by
  obtain ⟨workflowLines, separator, partLines, rfl, workflowsShown, blank, partsShown⟩ :=
    spelt
  obtain ⟨table, made, listed, acceptSame, rejectSame⟩ :=
    Table.ofWorkflows_ok distinct notAccept notReject
  have inParts : (false || !workflows.isEmpty) = true := by simpa using notEmpty
  have read : (workflowLines ++ separator :: partLines).foldlM readLine ⟨[], [], false⟩ =
      .ok ⟨workflows, parts, true⟩ := by
    rw [List.foldlM_append, foldlM_workflows workflowsShown workflowsSpellable]
    show (separator :: partLines).foldlM readLine ⟨workflows, [], false⟩ = _
    rw [List.foldlM_cons, readLine_blank blank]
    show partLines.foldlM readLine ⟨workflows, [], false || !workflows.isEmpty⟩ = _
    rw [inParts]
    exact foldlM_parts partsShown partsSpellable workflows []
  refine ⟨⟨table, parts⟩, ?_, ?_, ?_, acceptSame, rejectSame, rfl⟩
  · rw [parse, read]
    show (Table.ofWorkflows workflows accept reject >>= _) = _
    rw [made]
    rfl
  · show table.entries.map Prod.fst = _
    rw [listed, List.map_map]
    rfl
  · intro workflow member
    exact Table.workflow_of_mem listed member

def marginLines : List String :=
  [" in\x7bx<-5:A,in_2\x7d\t", "in_2\x7bR\x7d", "\u00a0", "\x7bx=-1,m=0,a=25,s=3\x7d\u2003"]

def marginWorkflows : List Workflow :=
  [⟨"in", [⟨⟨.x, .lessThan, -5⟩, "A"⟩], "in_2"⟩, ⟨"in_2", [], "R"⟩]

theorem spells_marginLines : Spells marginLines marginWorkflows [⟨-1, 0, 25, 3⟩] := by
  refine ⟨_, _, [_], rfl, .cons ?_ (.cons ?_ .nil), ?_, .cons ?_ .nil⟩
  · exact ⟨[' '], ['\t'], List.all_eq_true.mp rfl, List.all_eq_true.mp rfl, by decide⟩
  · exact Text.Padded.refl _
  · exact ⟨['\u00a0'], [], List.all_eq_true.mp rfl, List.all_eq_true.mp rfl, by decide⟩
  · exact ⟨[], ['\u2003'], List.all_eq_true.mp rfl, List.all_eq_true.mp rfl, by decide⟩

theorem parse_of_spells_marginLines :
    Spells marginLines marginWorkflows [⟨-1, 0, 25, 3⟩] ∧
    ∃ listing, parse marginLines "A" "R" = .ok listing ∧
      listing.table.names = ["in", "in_2"] ∧
      listing.table.workflow "in" = .ok ⟨"in", [⟨⟨.x, .lessThan, -5⟩, "A"⟩], "in_2"⟩ ∧
      listing.table.accept = "A" ∧ listing.table.reject = "R" ∧
      listing.parts = [⟨-1, 0, 25, 3⟩] := by
  have spellable : ∀ workflow ∈ marginWorkflows, workflow.Spellable := by
    simp only [marginWorkflows, List.forall_mem_cons, List.not_mem_nil, false_implies,
      implies_true, and_true]
    exact ⟨⟨by decide, by decide, by decide +kernel⟩, ⟨by decide, by decide, by decide⟩⟩
  have partSpellable : ∀ part ∈ ([⟨-1, 0, 25, 3⟩] : List Part), part.Spellable := by
    decide +kernel
  have notAccept : "A" ∉ marginWorkflows.map Workflow.name := by decide
  have notReject : "R" ∉ marginWorkflows.map Workflow.name := by decide
  obtain ⟨listing, parsed, names, found, accept, reject, parts⟩ :=
    parse_of_spells (List.cons_ne_nil _ _) (by decide) notAccept notReject spellable
      partSpellable spells_marginLines
  exact ⟨spells_marginLines, listing, parsed, names, found _ List.mem_cons_self, accept, reject,
    parts⟩

end Listing

end PartSorting
