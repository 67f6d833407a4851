import PartSorting.Proofs.Table.Shrinking

/-! # How an evaluation of boxes fails

An evaluation should fail exactly if the judgement of some part in its scope fails, and with the
fault of such a part.  It does as far as the walks of the parts go.  Only the reports stand in the
way: a division is reported with the thresholds of pruned rules and the volumes of pieces, and a
verdict with the ratings of its part, and a report fails when a number has too many digits. -/

set_option autoImplicit false

namespace PartSorting

namespace Table

variable {table : Table} {config : Config} {box : Option Box}

/-- The evaluation fails exactly if a part in its scope does, and with the fault of such a part,
which lies in the graph of the workflows. -/
structure FailsAsJudged (table : Table) (config : Config) (box : Option Box) : Prop where
  fails_iff : (∃ fault, (table.evaluate config box).outcome = .error fault) ↔
    ∃ part fault, InScope config box part ∧ table.classify config part = .error fault
  same_fault : ∀ fault, (table.evaluate config box).outcome = .error fault →
    fault.InGraph ∧
      ∃ part, InScope config box part ∧ table.classify config part = .error fault

/-- Some box that comes of the start box is divided with a report that is too long to be
written. -/
def Overlong (table : Table) (config : Config) (box : Option Box) : Prop :=
  0 < Box.volume (startBox config box) ∧
    ∃ (last : Transit Box) (workflow : Workflow),
      Reaches table config.detectCycles (cutPieces config.scale)
        ⟨[], config.entry, startBox config box⟩ last ∧
      table.arrive config.detectCycles last.path last.name = .ok (some workflow) ∧
      ¬(workflow.divide config.scale last.load).Written

def ThresholdsWritten (table : Table) : Prop :=
  ∀ entry ∈ table.entries, ∀ rule ∈ entry.2.rules, Writable rule.condition.threshold

instance (table : Table) : Decidable table.ThresholdsWritten :=
  inferInstanceAs (Decidable (∀ entry ∈ table.entries, ∀ rule ∈ entry.2.rules, _))

theorem evaluate_error_cases {fault : Fault}
    (failed : (table.evaluate config box).outcome = .error fault) :
    0 < Box.volume (startBox config box) ∧
      (table.sweep config (pushPieces config.scale) (startBox config box)).outcome =
        .error fault := by
  by_cases positive : 0 < Box.volume (startBox config box)
  · simp only [evaluate, positive, if_true, Traced.outcome_bind] at failed
    rcases Outcome.bind_error failed with swept | ⟨_, _, impossible⟩
    · exact ⟨positive, swept⟩
    · contradiction
  · simp only [evaluate, positive, if_false] at failed
    contradiction

theorem Reaches.cut {first last : Transit Box}
    (reached : Reaches table config.detectCycles (pushPieces config.scale) first last) :
    Reaches table config.detectCycles (cutPieces config.scale) first last := by
  induction reached with
  | refl => exact .refl
  | tail _ move ih =>
      cases move with
      | piece arrived divided member =>
          exact .tail ih (.piece arrived (cut_of_pushPieces divided).1 member)

/-- A division fails only because a report on it is too long. -/
theorem overlong_of_undivided (positive : 0 < Box.volume (startBox config box))
    {last : Transit Box} {workflow : Workflow} {fault : Fault}
    (reached : table.Loads config box last)
    (arrived : table.arrive config.detectCycles last.path last.name = .ok (some workflow))
    (undivided : (pushPieces config.scale last.name workflow last.load).outcome = .error fault) :
    fault = .integerTooLong ∧ Overlong table config box := by
  rw [outcome_pushPieces] at undivided
  split at undivided
  · cases undivided
  · rename_i unwritten
    obtain rfl := Except.error.inj undivided
    exact ⟨rfl, positive, last, workflow, reached.cut, arrived, unwritten⟩

/-- A failed evaluation has met a part whose walk fails in the same way, or a report too long. -/
theorem cause_of_evaluate_error (proper : config.scale.Proper) {fault : Fault}
    (failed : (table.evaluate config box).outcome = .error fault) :
    (∃ part, InScope config box part ∧ table.walk config part = .error fault) ∨
      (fault = .integerTooLong ∧ Overlong table config box) := by
  obtain ⟨positive, swept⟩ := evaluate_error_cases failed
  have occupied : Box.Occupied config.scale (startBox config box) :=
    ⟨within_startBox proper box, positive⟩
  rcases failed_walk_of_sweepFrom (faithful_pushPieces config.scale) _ _ _ _ fault occupied swept
    with ⟨part, present, walked⟩ | ⟨last, workflow, reached, arrived, undivided⟩
  · exact .inl ⟨part, weight_startBox_pos_iff.mp present, walked⟩
  · exact .inr (overlong_of_undivided positive reached arrived undivided)

/-- In a finished evaluation the walks of all parts in scope have ended at a sink. -/
theorem walk_of_evaluate_ok (proper : config.scale.Proper) {report : RangeReport}
    (evaluated : (table.evaluate config box).outcome = .ok report) {part : Part}
    (inScope : InScope config box part) : ∃ verdict, table.walk config part = .ok verdict := by
  obtain ⟨arrivals, _, _, sighted⟩ := arrivals_of_evaluate proper evaluated
  obtain ⟨verdict, walked, _⟩ := (sighted part).2 (weight_startBox_pos_iff.mpr inScope)
  exact ⟨verdict, walked⟩

theorem evaluate_error_of_walk (proper : config.scale.Proper) {part : Part} {fault : Fault}
    (inScope : InScope config box part) (failed : table.walk config part = .error fault) :
    ∃ cause, (table.evaluate config box).outcome = .error cause := by
  cases outcome : (table.evaluate config box).outcome with
  | error cause => exact ⟨cause, rfl⟩
  | ok report =>
      obtain ⟨verdict, walked⟩ := walk_of_evaluate_ok proper outcome inScope
      rw [failed] at walked
      cases walked

theorem evaluate_error_of_overlong (overlong : Overlong table config box) :
    ∃ cause, (table.evaluate config box).outcome = .error cause := by
  obtain ⟨positive, last, workflow, reached, arrived, unwritten⟩ := overlong
  cases outcome : (table.evaluate config box).outcome with
  | error cause => exact ⟨cause, rfl⟩
  | ok report =>
      obtain ⟨arrivals, _, ⟨empty, _⟩ | ⟨_, swept⟩⟩ := evaluate_ok_cases outcome
      · exact absurd positive empty
      · obtain ⟨_, _, sweptLast⟩ := swept_of_reaches
          (fun _ _ _ _ divided => (cut_of_pushPieces divided).1) reached swept
        obtain ⟨pieces, divided, _⟩ := divided_of_swept arrived sweptLast
        exact absurd (cut_of_pushPieces divided).2 unwritten

/-- Volumes only shrink on the way, so a start box whose volume can be written has no piece whose
volume is too long. -/
theorem not_overlong_of_written (thresholds : table.ThresholdsWritten)
    (volume : Writable (Box.volume (startBox config box))) : ¬Overlong table config box := by
  intro overlong
  obtain ⟨positive, last, workflow, reached, arrived, unwritten⟩ := overlong
  obtain ⟨usable, bounded⟩ := usable_of_reaches reached (usable_startBox positive)
  apply unwritten
  constructor
  · intro rule pruned
    have entry := find?_eq_some_iff.mp (name_of_arrive arrived).1
    exact thresholds _ entry rule (Workflow.mem_rules_of_mem_pruned pruned)
  · intro piece member
    obtain ⟨pieceUsable, smaller⟩ := Workflow.usable_of_mem_divide usable member
    exact volume.of_le (Int.le_of_lt pieceUsable.volume_pos) (Int.le_trans smaller bounded)

theorem overlong_of_integerTooLong (proper : config.scale.Proper)
    (detect : config.detectCycles = true)
    (failed : (table.evaluate config box).outcome = .error .integerTooLong) :
    Overlong table config box := by
  rcases cause_of_evaluate_error proper failed with ⟨part, _, walked⟩ | ⟨_, overlong⟩
  · cases walk_error detect walked
  · exact overlong

theorem failsAsJudged_of_inGraph (proper : config.scale.Proper) {fault : Fault}
    (inGraph : fault.InGraph) (failed : (table.evaluate config box).outcome = .error fault) :
    FailsAsJudged table config box := by
  have judged : ∃ part, InScope config box part ∧ table.classify config part = .error fault := by
    rcases cause_of_evaluate_error proper failed with ⟨part, inScope, walked⟩ | ⟨rfl, _⟩
    · exact ⟨part, inScope, classify_of_walk_error walked⟩
    · cases inGraph
  constructor
  · obtain ⟨part, inScope, classified⟩ := judged
    exact iff_of_true ⟨fault, failed⟩ ⟨part, fault, inScope, classified⟩
  · intro other failedToo
    obtain rfl := Except.error.inj (failed.symm.trans failedToo)
    exact ⟨inGraph, judged⟩

theorem failsAsJudged_of_ok (proper : config.scale.Proper) {report : RangeReport}
    (evaluated : (table.evaluate config box).outcome = .ok report)
    (spellable : ∀ part, InScope config box part → part.Spellable) :
    FailsAsJudged table config box := by
  have finished : ∀ fault, (table.evaluate config box).outcome ≠ .error fault := by
    intro fault failed
    rw [evaluated] at failed
    cases failed
  constructor
  · apply iff_of_false
    · exact fun failing => failing.elim finished
    · intro failing
      obtain ⟨part, fault, inScope, classified⟩ := failing
      obtain ⟨verdict, walked⟩ := walk_of_evaluate_ok proper evaluated inScope
      rw [classify_of_spellable (spellable part inScope), walked] at classified
      cases classified
  · exact fun fault failed => absurd failed (finished fault)

theorem spellable_of_failsAsJudged (proper : config.scale.Proper)
    (asJudged : FailsAsJudged table config box) {report : RangeReport}
    (evaluated : (table.evaluate config box).outcome = .ok report) {part : Part}
    (inScope : InScope config box part) : part.Spellable := by
  by_contra notSpellable
  obtain ⟨verdict, walked⟩ := walk_of_evaluate_ok proper evaluated inScope
  have lost : table.classify config part = .error .integerTooLong := by
    rw [classify_of_walk_ok walked, if_neg notSpellable]
  obtain ⟨fault, failed⟩ := asJudged.fails_iff.mpr ⟨part, _, inScope, lost⟩
  rw [evaluated] at failed
  cases failed

/-- Evaluations fail as the parts in their scope are judged, but for numbers too long to be
reported: exactly those do that fail in the graph of the workflows, or that succeed with parts in
scope all of which can be written.  An evaluation fails if a walk does or if a report on a division
is too long, and for no other reason.  When thresholds, the bounds of the scale and the start
volume can be written, nothing is too long. -/
theorem failsAsJudged_iff (proper : config.scale.Proper) (detect : config.detectCycles = true) :
    (FailsAsJudged table config box ↔
      (∃ fault, fault.InGraph ∧ (table.evaluate config box).outcome = .error fault) ∨
        (∃ report, (table.evaluate config box).outcome = .ok report) ∧
          ∀ part, InScope config box part → part.Spellable) ∧
    ((∃ fault, (table.evaluate config box).outcome = .error fault) ↔
      (∃ part fault, InScope config box part ∧ table.walk config part = .error fault) ∨
        Overlong table config box) ∧
    ((table.evaluate config box).outcome = .error .integerTooLong →
      Overlong table config box) ∧
    (table.ThresholdsWritten → Writable config.scale.low → Writable config.scale.high →
      Writable (Box.volume (startBox config box)) → FailsAsJudged table config box) := by
  refine ⟨⟨?_, ?_⟩, ⟨?_, ?_⟩, overlong_of_integerTooLong proper detect, ?_⟩
  · intro asJudged
    cases outcome : (table.evaluate config box).outcome with
    | error fault => exact .inl ⟨fault, (asJudged.same_fault fault outcome).1, rfl⟩
    | ok report =>
        exact .inr ⟨⟨report, rfl⟩, fun _ => spellable_of_failsAsJudged proper asJudged outcome⟩
  · intro cause
    rcases cause with ⟨fault, inGraph, failed⟩ | ⟨⟨report, evaluated⟩, spellable⟩
    · exact failsAsJudged_of_inGraph proper inGraph failed
    · exact failsAsJudged_of_ok proper evaluated spellable
  · intro failing
    obtain ⟨fault, failed⟩ := failing
    rcases cause_of_evaluate_error proper failed with ⟨part, inScope, walked⟩ | ⟨_, long⟩
    · exact .inl ⟨part, fault, inScope, walked⟩
    · exact .inr long
  · intro cause
    rcases cause with ⟨part, fault, inScope, walked⟩ | long
    · exact evaluate_error_of_walk proper inScope walked
    · exact evaluate_error_of_overlong long
  · intro thresholds low high volume
    cases outcome : (table.evaluate config box).outcome with
    | ok report =>
        exact failsAsJudged_of_ok proper outcome fun part inScope =>
          Part.spellable_of_onScale low high inScope.1
    | error fault =>
        rcases cause_of_evaluate_error proper outcome with ⟨part, _, walked⟩ | ⟨_, long⟩
        · exact failsAsJudged_of_inGraph proper (walk_error detect walked) outcome
        · exact absurd long (not_overlong_of_written thresholds volume)

theorem failsAsJudged_iff_dangling :
    (dangling.evaluate { Config.usual with scale := ⟨1, 4⟩ } none).outcome =
      .error (.unknownWorkflow "gone") ∧
    FailsAsJudged dangling { Config.usual with scale := ⟨1, 4⟩ } none := by
  have failed : (dangling.evaluate { Config.usual with scale := ⟨1, 4⟩ } none).outcome =
      .error (.unknownWorkflow "gone") := by
    decide +kernel
  exact ⟨failed, (failsAsJudged_iff (by decide) rfl).1.mpr (.inl ⟨_, .unknown "gone", failed⟩)⟩

def rejecting : Table where
  entries := [("in", ⟨"in", [], "R"⟩)]
  accept := "A"
  reject := "R"
  names_nodup := by decide
  accept_not_name := by decide
  reject_not_name := by decide

/-- A scale with so many ratings that the number of all parts has 4401 digits. -/
def wide : Config :=
  { Config.usual with scale := ⟨1, 10 ^ 1100⟩ }

theorem evaluate_wide :
    (rejecting.evaluate wide none).outcome = .error .integerTooLong ∧
    (∀ part, InScope wide none part →
      rejecting.classify wide part = .ok ⟨part, false, ["in"], "R"⟩) ∧
    ¬FailsAsJudged rejecting wide none := by
  have failed : (rejecting.evaluate wide none).outcome = .error .integerTooLong := by
    decide +kernel
  have low : Writable wide.scale.low := by decide +kernel
  have high : Writable wide.scale.high := by decide +kernel
  refine ⟨failed, ?_, ?_⟩
  · intro part inScope
    rw [classify_of_spellable (Part.spellable_of_onScale low high inScope.1)]
    rfl
  · intro asJudged
    cases (asJudged.same_fault _ failed).1

end Table

end PartSorting
