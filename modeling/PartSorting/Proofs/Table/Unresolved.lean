import PartSorting.Proofs.Table.Failure
import PartSorting.Proofs.Table.Mask
import PartSorting.Proofs.Table.Search

/-! # Unknown names are foretold

A table lists its unresolved targets before anything is evaluated.  Walks, sweeps and the search
for an order look up nothing but the entry and targets of workflows that they have come to, and
sinks are never looked up.  So an unknown name that they come upon is the entry or in that list. -/

set_option autoImplicit false

namespace PartSorting.Table

/-- What is known beforehand of an unknown name: it is the entry itself, or the list of unresolved
targets has it beside a name that can be reached. -/
def Foretold (table : Table) (entry name : String) : Prop :=
  (name = entry ∧ table.isSink name = false ∧ name ∉ table.names) ∨
    ∃ source, table.CanReach entry source ∧ (source, name) ∈ table.unresolved

variable {table : Table} {config : Config} {entry name target unknown : String}

/-- The unresolved targets are the successors that are neither sinks nor workflows. -/
theorem mem_unresolved_iff : (name, target) ∈ table.unresolved ↔
    table.Leads name target ∧ table.isSink target = false ∧ target ∉ table.names := by
  rw [leads_iff, unresolved]
  constructor
  · intro listed
    obtain ⟨⟨source, workflow⟩, isEntry, listed⟩ := List.mem_flatMap.mp listed
    obtain ⟨other, isTarget, same⟩ := List.mem_map.mp listed
    obtain ⟨rfl, rfl⟩ := Prod.mk.inj same
    obtain ⟨isTarget, missing⟩ := List.mem_filter.mp isTarget
    simp only [Bool.and_eq_true, Bool.not_eq_true', Option.isNone_iff_eq_none,
      find?_eq_none_iff] at missing
    exact ⟨⟨workflow, find?_eq_some_iff.mpr isEntry, isTarget⟩, missing⟩
  · rintro ⟨⟨workflow, found, isTarget⟩, missing⟩
    have isMissing : (!table.isSink target && (table.find? target).isNone) = true := by
      simp only [Bool.and_eq_true, Bool.not_eq_true', Option.isNone_iff_eq_none,
        find?_eq_none_iff]
      exact missing
    apply List.mem_flatMap.mpr
    refine ⟨(name, workflow), find?_eq_some_iff.mp found, List.mem_map.mpr ⟨target, ?_, rfl⟩⟩
    exact List.mem_filter.mpr ⟨isTarget, isMissing⟩

theorem foretold_iff_dangles : table.Foretold entry name ↔ table.Dangles entry name := by
  constructor
  · rintro (⟨rfl, notSink, missing⟩ | ⟨source, reached, listed⟩)
    · exact ⟨notSink, missing, .inl rfl⟩
    · obtain ⟨leads, notSink, missing⟩ := mem_unresolved_iff.mp listed
      exact ⟨notSink, missing, .inr ⟨source, reached, leads⟩⟩
  · rintro ⟨notSink, missing, rfl | ⟨source, reached, leads⟩⟩
    · exact .inl ⟨rfl, notSink, missing⟩
    · exact .inr ⟨source, reached, mem_unresolved_iff.mpr ⟨leads, notSink, missing⟩⟩

theorem not_foretold (resolved : table.unresolved = [])
    (known : table.isSink entry = true ∨ entry ∈ table.names) (name : String) :
    ¬table.Foretold entry name := by
  rintro (⟨rfl, notSink, missing⟩ | ⟨source, _, listed⟩)
  · rcases known with atSink | isName
    · rw [notSink] at atSink
      contradiction
    · exact missing isName
  · rw [resolved] at listed
    exact absurd listed List.not_mem_nil

/-! ## Only names that can be reached are looked up -/

theorem dangles_of_arrive {detectCycles : Bool} {path : List String}
    (reached : table.CanReach entry name)
    (failed : table.arrive detectCycles path name = .error (.unknownWorkflow unknown)) :
    table.Dangles entry unknown := by
  obtain ⟨notSink, ⟨_, impossible⟩ | ⟨missing, same⟩⟩ := arrive_error_cases failed
  · contradiction
  · obtain rfl := Fault.unknownWorkflow.inj same
    exact dangles_of_canReach reached notSink missing

/-- From a workflow a walk goes on to one of its targets. -/
theorem dangles_of_walkFrom {detectCycles : Bool} {part : Part} {depth : Nat} {path : List String}
    (reached : table.CanReach entry name)
    (failed : table.walkFrom detectCycles part depth path name =
      .error (.unknownWorkflow unknown)) :
    table.Dangles entry unknown := by
  induction depth generalizing path name with
  | zero =>
      have impossible := Except.error.inj failed
      contradiction
  | succ depth ih =>
      cases arrived : table.arrive detectCycles path name with
      | error fault =>
          rw [walkFrom_of_arrive_error arrived] at failed
          obtain rfl := Except.error.inj failed
          exact dangles_of_arrive reached arrived
      | ok next =>
          cases next with
          | none =>
              rw [walkFrom_of_arrive_none arrived] at failed
              contradiction
          | some workflow =>
              rw [walkFrom_of_arrive_some arrived] at failed
              have found := (name_of_arrive arrived).1
              have leads : table.Leads name (workflow.route part) :=
                leads_iff.mpr ⟨workflow, found, workflow.route_mem_targets part⟩
              exact ih (reached.tail leads) failed

theorem dangles_of_classify {part : Part}
    (failed : table.classify config part = .error (.unknownWorkflow unknown)) :
    table.Dangles config.entry unknown :=
  dangles_of_walkFrom .refl (walk_of_classify_error failed (by simp))

theorem Reaches.canReach {Load : Type} {detectCycles : Bool} {divide : Divider Load}
    (routed : ∀ name workflow load pieces, (divide name workflow load).outcome = .ok pieces →
      ∀ piece ∈ pieces, piece.1 ∈ workflow.targets)
    {first last : Transit Load} (reached : Reaches table detectCycles divide first last) :
    table.CanReach first.name last.name := by
  induction reached with
  | refl => exact .refl
  | tail _ move ih =>
      cases move with
      | piece arrived divided member =>
          have isTarget := routed _ _ _ _ divided _ member
          exact ih.tail (leads_iff.mpr ⟨_, (name_of_arrive arrived).1, isTarget⟩)

theorem dangles_of_evaluate {box : Option Box}
    (failed : (table.evaluate config box).outcome = .error (.unknownWorkflow unknown)) :
    table.Dangles config.entry unknown := by
  obtain ⟨positive, swept⟩ := evaluate_error_cases failed
  rcases reached_of_sweepFrom_error swept with
    ⟨_, impossible⟩ | ⟨last, reached, lost | ⟨workflow, arrived, undivided⟩⟩
  · contradiction
  · exact dangles_of_arrive (reached.canReach fun _ _ _ _ => targets_of_pushPieces) lost
  · have impossible := (overlong_of_undivided positive reached arrived undivided).1
    contradiction

theorem dangles_of_acceptMask {parts : List Part}
    (failed : table.acceptMask config parts = .error (.unknownWorkflow unknown)) :
    table.Dangles config.entry unknown := by
  obtain ⟨part, _, walked⟩ := part_of_acceptMask_error failed
  exact dangles_of_walkFrom .refl walked

theorem dangles_of_order (failed : table.order entry = .error (.unknownWorkflow unknown)) :
    table.Dangles entry unknown := by
  rcases order_error_cases failed with ⟨_, impossible, _⟩ | ⟨name, same, dangles⟩
  · contradiction
  · obtain rfl := Fault.unknownWorkflow.inj same
    exact dangles

/-- Whatever is evaluated, an unknown name that is come upon was foretold.  If no target is
unresolved and the entry is a sink or a workflow, then nothing comes upon an unknown name. -/
theorem unknownWorkflow_foretold (table : Table) (config : Config) :
    (∀ part name, table.classify config part = .error (.unknownWorkflow name) →
      table.Foretold config.entry name) ∧
    (∀ box name, (table.evaluate config box).outcome = .error (.unknownWorkflow name) →
      table.Foretold config.entry name) ∧
    (∀ parts name, table.acceptMask config parts = .error (.unknownWorkflow name) →
      table.Foretold config.entry name) ∧
    (∀ name, table.order config.entry = .error (.unknownWorkflow name) →
      table.Foretold config.entry name) ∧
    (table.unresolved = [] → table.isSink config.entry = true ∨ config.entry ∈ table.names →
      ∀ name, (∀ part, table.classify config part ≠ .error (.unknownWorkflow name)) ∧
        (∀ box, (table.evaluate config box).outcome ≠ .error (.unknownWorkflow name)) ∧
        (∀ parts, table.acceptMask config parts ≠ .error (.unknownWorkflow name)) ∧
        table.order config.entry ≠ .error (.unknownWorkflow name)) := by
  have walks : ∀ part name, table.classify config part = .error (.unknownWorkflow name) →
      table.Foretold config.entry name := fun part name failed =>
    foretold_iff_dangles.mpr (dangles_of_classify failed)
  have boxes : ∀ box name, (table.evaluate config box).outcome = .error (.unknownWorkflow name) →
      table.Foretold config.entry name := fun box name failed =>
    foretold_iff_dangles.mpr (dangles_of_evaluate failed)
  have masks : ∀ parts name, table.acceptMask config parts = .error (.unknownWorkflow name) →
      table.Foretold config.entry name := fun parts name failed =>
    foretold_iff_dangles.mpr (dangles_of_acceptMask failed)
  have orders : ∀ name, table.order config.entry = .error (.unknownWorkflow name) →
      table.Foretold config.entry name := fun name failed =>
    foretold_iff_dangles.mpr (dangles_of_order failed)
  refine ⟨walks, boxes, masks, orders, ?_⟩
  intro resolved known name
  have unforetold := not_foretold resolved known name
  exact ⟨fun part failed => unforetold (walks part name failed),
    fun box failed => unforetold (boxes box name failed),
    fun parts failed => unforetold (masks parts name failed),
    fun failed => unforetold (orders name failed)⟩

def relabeled : Table where
  entries :=
    [("in", ⟨"in", [⟨⟨.x, .lessThan, 3⟩, "mid"⟩], "bin"⟩),
      ("mid", ⟨"mid", [⟨⟨.m, .greaterThan, 2⟩, "A"⟩], "shelf"⟩)]
  accept := "shelf"
  reject := "bin"
  names_nodup := by decide
  accept_not_name := by decide
  reject_not_name := by decide

theorem unknownWorkflow_foretold_relabeled :
    relabeled.unresolved = [("mid", "A")] ∧
    relabeled.classify Config.usual ⟨2, 3, 1, 1⟩ = .error (.unknownWorkflow "A") ∧
    relabeled.acceptMask Config.usual [⟨3, 3, 1, 1⟩, ⟨2, 3, 1, 1⟩] =
      .error (.unknownWorkflow "A") ∧
    relabeled.Foretold "in" "A" ∧
    twoStage.unresolved = [] ∧
    ∀ box, (twoStage.evaluate Config.usual box).outcome ≠ .error (.unknownWorkflow "A") := by
  have walked : relabeled.classify Config.usual ⟨2, 3, 1, 1⟩ = .error (.unknownWorkflow "A") :=
    classify_of_walk_error (by decide)
  have masked : relabeled.acceptMask Config.usual [⟨3, 3, 1, 1⟩, ⟨2, 3, 1, 1⟩] =
      .error (.unknownWorkflow "A") := by
    decide
  have resolved : twoStage.unresolved = [] := by decide
  obtain ⟨walks, _⟩ := unknownWorkflow_foretold relabeled Config.usual
  obtain ⟨_, _, _, _, never⟩ := unknownWorkflow_foretold twoStage Config.usual
  exact ⟨by decide, walked, masked, walks _ _ walked, resolved,
    (never resolved (.inr (by decide)) "A").2.1⟩

end PartSorting.Table
