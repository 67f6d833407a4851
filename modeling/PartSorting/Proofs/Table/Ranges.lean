import PartSorting.Proofs.Table.Delivery
import PartSorting.Proofs.Workflow.Pruning
import PartSorting.Table.Ranges

/-! # What an evaluation of boxes leaves at the sinks

The division of a box sends every part along its route, so a finished evaluation has each part of
the start box in exactly one delivered box, as often as in the start box, at the sink where its
walk ends. -/

set_option autoImplicit false

namespace PartSorting

def Accepting (outcome : Except Fault Verdict) : Prop :=
  ∃ verdict, outcome = .ok verdict ∧ verdict.accepted = true

instance (outcome : Except Fault Verdict) : Decidable (Accepting outcome) :=
  match outcome with
  | .ok verdict =>
    decidable_of_iff (verdict.accepted = true)
      ⟨fun accepted => ⟨verdict, rfl, accepted⟩, fun ⟨_, same, accepted⟩ =>
        Except.ok.inj same ▸ accepted⟩
  | .error _ => isFalse fun ⟨_, impossible, _⟩ => by contradiction

theorem accepting_iff {outcome : Except Fault Verdict} {verdict : Verdict}
    (judged : outcome = .ok verdict) : Accepting outcome ↔ verdict.accepted = true := by
  subst judged
  constructor
  · intro accepting
    obtain ⟨_, same, accepted⟩ := accepting
    obtain rfl := Except.ok.inj same
    exact accepted
  · intro accepted
    exact ⟨verdict, rfl, accepted⟩

/-- The number of times that an item is sighted at the sinks of one kind: all its occurrences if
its walk ends there, and none otherwise. -/
theorem SightedAtEnd.chosen {walk : Except Fault Verdict} {occurrences : Nat}
    {seen : List (String × Nat)} (sighted : SightedAtEnd walk occurrences seen)
    {kind : String → Bool} {ends : Prop} [Decidable ends]
    (endsThere : ∀ verdict, walk = .ok verdict → (kind verdict.terminal = true ↔ ends)) :
    (seen.filter fun sighting => kind sighting.1).map Prod.snd =
      if 0 < occurrences ∧ ends then [occurrences] else [] := by
  rcases Nat.eq_zero_or_pos occurrences with absent | present
  · rw [sighted.1 absent, if_neg (by omega)]
    rfl
  · obtain ⟨verdict, walked, rfl⟩ := sighted.2 present
    by_cases isChosen : kind verdict.terminal = true
    · rw [if_pos ⟨present, (endsThere verdict walked).mp isChosen⟩]
      simp only [List.filter_cons, isChosen, if_true, List.filter_nil, List.map_cons, List.map_nil]
    · have elsewhere : ¬(0 < occurrences ∧ ends) := fun both =>
        isChosen ((endsThere verdict walked).mpr both.2)
      rw [if_neg elsewhere]
      simp only [List.filter_cons, isChosen, Bool.false_eq_true, if_false, List.filter_nil,
        List.map_nil]

namespace Table

variable {table : Table} {config : Config} {box : Option Box}

theorem accepting_classify_iff {part : Part} :
    Accepting (table.classify config part) ↔
      Accepting (table.walk config part) ∧ part.Spellable := by
  simp only [Accepting, classify_eq_ok_iff]
  constructor
  · intro accepting
    obtain ⟨verdict, ⟨walked, spellable⟩, accepted⟩ := accepting
    exact ⟨⟨verdict, walked, accepted⟩, spellable⟩
  · intro both
    obtain ⟨⟨verdict, walked, accepted⟩, spellable⟩ := both
    exact ⟨verdict, ⟨walked, spellable⟩, accepted⟩

def cutPieces (scale : Interval) : Divider Box :=
  fun _ workflow box => pure (workflow.divide scale box).pieces

theorem outcome_cutPieces (scale : Interval) (name : String) (workflow : Workflow) (box : Box) :
    (cutPieces scale name workflow box).outcome = .ok (workflow.divide scale box).pieces :=
  rfl

theorem faithful_cutPieces (scale : Interval) :
    Faithful (cutPieces scale) (Box.Occupied scale) (fun part box => Box.weight box part) id where
  inhabited := by
    intro box occupied
    exact occupied.exists_part
  kept := by
    intro name workflow box pieces occupied divided piece member
    obtain rfl := Except.ok.inj divided
    exact Workflow.occupied_of_mem_divideBy _ _ box occupied.within piece member
  routed := by
    intro name workflow box pieces occupied divided part
    obtain rfl := Except.ok.inj divided
    exact Workflow.sightings_divideBy _ _ box occupied.within part

theorem writable_pushes_iff {name : String} {pieces : List (String × Box)} :
    (∀ event ∈ pushes name pieces, event.Writable) ↔
      ∀ piece ∈ pieces, Writable (Box.volume piece.2) :=
  List.forall_mem_map

theorem pushPieces_of_written {scale : Interval} {workflow : Workflow} {box : Box}
    (written : (workflow.divide scale box).Written) (name : String) :
    pushPieces scale name workflow box =
      ⟨(workflow.divide scale box).prunes workflow.name ++
          pushes name (workflow.divide scale box).pieces,
        .ok (workflow.divide scale box).pieces⟩ := by
  have reported : ∀ event ∈ pushes name (workflow.divide scale box).pieces, event.Writable :=
    writable_pushes_iff.mpr written.volumes
  simp only [pushPieces, Workflow.split_of_written written.prunes,
    Traced.reportAll_of_writable reported, Traced.bind_def, Traced.events_pure,
    Traced.outcome_pure, List.append_nil]

theorem outcome_pushPieces (scale : Interval) (name : String) (workflow : Workflow) (box : Box) :
    (pushPieces scale name workflow box).outcome =
      if (workflow.divide scale box).Written then .ok (workflow.divide scale box).pieces
      else .error .integerTooLong := by
  by_cases written : (workflow.divide scale box).Written
  · rw [if_pos written, pushPieces_of_written written]
  · rw [if_neg written]
    by_cases prunes : (workflow.divide scale box).PrunesWritten
    · have unreported : ¬∀ event ∈ pushes name (workflow.divide scale box).pieces,
          event.Writable :=
        mt writable_pushes_iff.mp fun volumes => written ⟨prunes, volumes⟩
      rw [pushPieces, Traced.outcome_bind, Workflow.split_of_written prunes]
      simp only [bind, Except.bind, Traced.outcome_reportAll, if_neg unreported]
    · rw [pushPieces, Traced.outcome_bind, Workflow.split_of_not_written prunes]
      rfl

theorem cut_of_pushPieces {scale : Interval} {name : String} {workflow : Workflow} {box : Box}
    {pieces : List (String × Box)}
    (divided : (pushPieces scale name workflow box).outcome = .ok pieces) :
    (cutPieces scale name workflow box).outcome = .ok pieces ∧
      (workflow.divide scale box).Written := by
  rw [outcome_pushPieces] at divided
  split at divided
  · rename_i written
    obtain rfl := Except.ok.inj divided
    exact ⟨outcome_cutPieces scale name workflow box, written⟩
  · cases divided

theorem eq_divide_of_pushPieces {scale : Interval} {name : String} {workflow : Workflow}
    {box : Box} {pieces : List (String × Box)}
    (divided : (pushPieces scale name workflow box).outcome = .ok pieces) :
    pieces = (workflow.divide scale box).pieces := by
  have cut := (cut_of_pushPieces divided).1
  rw [outcome_cutPieces] at cut
  exact (Except.ok.inj cut).symm

theorem targets_of_pushPieces {scale : Interval} {name : String} {workflow : Workflow}
    {box : Box} {pieces : List (String × Box)}
    (divided : (pushPieces scale name workflow box).outcome = .ok pieces) :
    ∀ piece ∈ pieces, piece.1 ∈ workflow.targets := by
  obtain rfl := eq_divide_of_pushPieces divided
  exact fun piece member => Workflow.mem_targets_of_mem_divideBy member

theorem within_of_pushPieces {scale : Interval} {name : String} {workflow : Workflow} {box : Box}
    {pieces : List (String × Box)} (within : Box.Within scale box)
    (divided : (pushPieces scale name workflow box).outcome = .ok pieces) :
    ∀ piece ∈ pieces, Box.Within scale piece.2 := by
  obtain rfl := eq_divide_of_pushPieces divided
  intro piece member
  exact (Workflow.occupied_of_mem_divideBy _ _ box within piece member).within

/-- A finished sweep of a box within the scale has ended at a sink, or with the sweeps of the pieces
of a workflow, none of which is empty. -/
theorem sweepFrom_box_cases {detectCycles : Bool} {scale : Interval} {depth : Nat}
    {path : List String} {name : String} {load : Box} {arrivals : Arrivals Box}
    (within : Box.Within scale load)
    (swept : (table.sweepFrom detectCycles (pushPieces scale) depth path (name, load)).outcome =
      .ok arrivals) :
    (table.arrive detectCycles path name = .ok none ∧ arrivals = .atSink name load) ∨
      ∃ rest workflow results, depth = rest + 1 ∧
        table.arrive detectCycles path name = .ok (some workflow) ∧
        (pushPieces scale name workflow load).outcome = .ok (workflow.divide scale load).pieces ∧
        List.Forall₂ (fun piece result => Box.Occupied scale piece.2 ∧
          (table.sweepFrom detectCycles (pushPieces scale) rest (path ++ [name]) piece).outcome =
            .ok result) (workflow.divide scale load).pieces.reverse results ∧
        arrivals = .afterVisit results := by
  rcases sweepFrom_ok_cases swept with
    atSink | ⟨rest, workflow, pieces, results, depthEq, arrived, divided, followed, arrivalsEq⟩
  · exact .inl atSink
  · obtain rfl := eq_divide_of_pushPieces divided
    have occupied : ∀ piece ∈ (workflow.divide scale load).pieces.reverse,
        Box.Occupied scale piece.2 := fun piece member =>
      Workflow.occupied_of_mem_divideBy _ _ load within piece (List.mem_reverse.mp member)
    exact .inr ⟨rest, workflow, results, depthEq, arrived, divided,
      (List.forall₂_and_left _ _).mpr ⟨occupied, followed⟩, arrivalsEq⟩

theorem faithful_pushPieces (scale : Interval) :
    Faithful (pushPieces scale) (Box.Occupied scale) (fun part box => Box.weight box part) id :=
  (faithful_cutPieces scale).of_ok fun _ _ _ _ divided => (cut_of_pushPieces divided).1

/-- How often a part occurs among the parts to be evaluated: once if no box is given. -/
def occurrences : Option Box → Part → Nat
  | none, _ => 1
  | some box, part => Box.weight box part

theorem within_startBox (proper : config.scale.Proper) (box : Option Box) :
    Box.Within config.scale (startBox config box) := by
  cases box with
  | none => exact Box.within_full proper
  | some box => exact Box.within_inter_right (Box.within_full proper) box

/-- The start box has what is to be evaluated of the parts on the scale, and no other part. -/
theorem weight_startBox (config : Config) (box : Option Box) (part : Part) :
    Box.weight (startBox config box) part =
      if part.OnScale config.scale then occurrences box part else 0 := by
  cases box with
  | none => exact Box.weight_full config.scale part
  | some box =>
      rw [startBox, Box.weight_inter, Box.weight_full]
      split
      · exact Nat.mul_one _
      · exact Nat.mul_zero _

/-- The parts to be evaluated: those on the scale, and of these only the ones in a given box. -/
def InScope (config : Config) (box : Option Box) (part : Part) : Prop :=
  part.OnScale config.scale ∧ ∀ given ∈ box, part ∈ given

theorem weight_startBox_pos_iff {part : Part} :
    0 < Box.weight (startBox config box) part ↔ InScope config box part := by
  rw [weight_startBox, InScope]
  by_cases onScale : part.OnScale config.scale
  · rw [if_pos onScale]
    cases box with
    | none => simp [occurrences, onScale]
    | some given => simp [occurrences, onScale, Box.weight_pos_iff]
  · simp [onScale]

theorem mem_startBox_iff {part : Part} : part ∈ startBox config box ↔ InScope config box part := by
  rw [← Box.weight_pos_iff, weight_startBox_pos_iff]

/-- The loads of an evaluation, with the paths along which they have come. -/
def Loads (table : Table) (config : Config) (box : Option Box) (transit : Transit Box) : Prop :=
  Reaches table config.detectCycles (pushPieces config.scale)
    ⟨[], config.entry, startBox config box⟩ transit

theorem evaluate_ok_cases {report : RangeReport}
    (evaluated : (table.evaluate config box).outcome = .ok report) :
    ∃ arrivals, report = table.reportOf (Box.volume (startBox config box)) arrivals ∧
      ((¬0 < Box.volume (startBox config box) ∧ arrivals = ⟨[], 0⟩) ∨
        (0 < Box.volume (startBox config box) ∧
          (table.sweep config (pushPieces config.scale) (startBox config box)).outcome =
            .ok arrivals)) := by
  by_cases positive : 0 < Box.volume (startBox config box)
  · simp only [evaluate, positive, if_true, Traced.outcome_bind] at evaluated
    obtain ⟨arrivals, swept, reported⟩ := Outcome.bind_ok evaluated
    exact ⟨arrivals, (Except.ok.inj reported).symm, .inr ⟨positive, swept⟩⟩
  · simp only [evaluate, positive, if_false] at evaluated
    exact ⟨_, (Except.ok.inj evaluated).symm, .inl ⟨positive, rfl⟩⟩

theorem occupied_of_mem_deliveries {detectCycles : Bool} {scale : Interval} {depth : Nat}
    {path : List String} {name : String} {load : Box} {arrivals : Arrivals Box}
    (occupied : Box.Occupied scale load)
    (swept : (table.sweepFrom detectCycles (pushPieces scale) depth path (name, load)).outcome =
      .ok arrivals) : ∀ delivery ∈ arrivals.deliveries, Box.Occupied scale delivery.2 := by
  intro delivery delivered
  obtain ⟨_, reached, _⟩ := reaches_of_mem_deliveries swept delivered
  exact ((faithful_pushPieces scale).of_reaches reached occupied).1

/-- A finished evaluation delivers each part of the start box once, where its walk ends. -/
theorem arrivals_of_evaluate (proper : config.scale.Proper) {report : RangeReport}
    (evaluated : (table.evaluate config box).outcome = .ok report) :
    ∃ arrivals, report = table.reportOf (Box.volume (startBox config box)) arrivals ∧
      (∀ delivery ∈ arrivals.deliveries, Box.Occupied config.scale delivery.2) ∧
      ∀ part, SightedAtEnd (table.walk config part)
        (Box.weight (startBox config box) part)
        (sightings (fun box => Box.weight box part) arrivals.deliveries) := by
  have within := within_startBox proper box
  obtain ⟨arrivals, reported, ⟨empty, rfl⟩ | ⟨positive, swept⟩⟩ := evaluate_ok_cases evaluated
  · refine ⟨_, reported, fun _ member => absurd member List.not_mem_nil, fun part => ?_⟩
    rw [Box.weight_eq_zero_of_volume_eq_zero within empty part]
    exact ⟨fun _ => rfl, fun impossible => absurd impossible (Nat.lt_irrefl 0)⟩
  · have occupied : Box.Occupied config.scale (startBox config box) := ⟨within, positive⟩
    exact ⟨arrivals, reported, occupied_of_mem_deliveries occupied swept,
      sighted_sweepFrom (faithful_pushPieces config.scale) _ _ _ _ arrivals occupied swept⟩

end Table

end PartSorting
