import Mathlib.Algebra.Order.Ring.Int
import PartSorting.Proofs.Grid.Points
import PartSorting.Proofs.Session.Counting
import PartSorting.Proofs.Table.Failure
import PartSorting.Proofs.Table.Lockstep
import PartSorting.Proofs.Table.Mask
import PartSorting.Proofs.Workflow.Partition

/-! # Counting by trial and counting by volumes

On a small scale all parts can be tried as rows.  The rows and the box of the whole scale are
divided in lock step: a group of rows is empty exactly if the piece of the box is, so both sweeps
come to the same names in the same order, and the two counts are equal or fail with the same
fault.  Only the trial makes no report: a division of the box may stop at a pruned rule whose
threshold is too long to be written. -/

set_option autoImplicit false

namespace PartSorting

/-- The rows have exactly the parts of a box within the scale. -/
structure Filled (scale : Interval) (box : Box) (rows : List Row) : Prop where
  within : Box.Within scale box
  same : ∀ part, part ∈ rows.map Prod.fst ↔ part ∈ box

namespace Filled

variable {scale : Interval} {box : Box} {rows : List Row}

theorem volume_pos_iff (filled : Filled scale box rows) : 0 < Box.volume box ↔ rows ≠ [] := by
  rw [Box.volume_pos_iff filled.within]
  constructor
  · rintro ⟨part, occurs⟩ rfl
    exact absurd ((filled.same part).mpr (Box.weight_pos_iff.mp occurs)) List.not_mem_nil
  · intro notEmpty
    obtain ⟨row, rest, rfl⟩ := List.exists_cons_of_ne_nil notEmpty
    exact ⟨row.1, Box.weight_pos_iff.mpr ((filled.same row.1).mp List.mem_cons_self)⟩

/-- Choosing rows goes along with restricting the box when both choose the same parts of it. -/
theorem choose (filled : Filled scale box rows) {smaller : Box}
    (within : Box.Within scale smaller) {chosen : Part → Bool}
    (weighed : ∀ part, Box.weight smaller part =
      if part ∈ box ∧ chosen part = true then Box.weight box part else 0) :
    Filled scale smaller (rows.filter fun row => chosen row.1) where
  within := within
  same := by
    intro part
    have left : part ∈ (rows.filter fun row => chosen row.1).map Prod.fst ↔
        part ∈ rows.map Prod.fst ∧ chosen part = true := by
      simp only [List.mem_map, List.mem_filter]
      constructor
      · rintro ⟨row, ⟨member, isChosen⟩, rfl⟩
        exact ⟨⟨row, member, rfl⟩, isChosen⟩
      · rintro ⟨⟨row, member, rfl⟩, isChosen⟩
        exact ⟨row, ⟨member, isChosen⟩, rfl⟩
    have right : part ∈ smaller ↔ part ∈ box ∧ chosen part = true := by
      rw [← Box.weight_pos_iff, weighed]
      by_cases both : part ∈ box ∧ chosen part = true
      · simp only [both, true_and, if_true, iff_true]
        exact Box.weight_pos_iff.mpr both.1
      · simp only [both, if_false, Nat.lt_irrefl]
    rw [left, right, filled.same]

theorem reading (filled : Filled scale box rows) (condition : Condition) {part : Part}
    (member : part ∈ box) :
    part.get condition.attr ∈ scale ∧
      (part.get condition.attr ∈ condition.window scale ↔ condition.admits part = true) :=
  ⟨Box.onScale_of_mem filled.within member condition.attr,
    Box.mem_window_iff_admits filled.within member condition⟩

theorem weight_of_not_mem {part : Part} (absent : part ∉ box) : Box.weight box part = 0 :=
  Nat.eq_zero_of_not_pos (mt Box.weight_pos_iff.mp absent)

/-- The rows that a condition admits have the parts of the box in its window. -/
theorem keep (filled : Filled scale box rows) (condition : Condition) :
    Filled scale (box.keep condition.attr (condition.window scale))
      (rows.filter fun row => condition.admits row.1) := by
  apply filled.choose (Box.within_keep filled.within _ _)
  intro part
  rw [Box.weight_keep]
  by_cases member : part ∈ box
  · simp only [member, true_and, (filled.reading condition member).2]
  · simp only [member, false_and, weight_of_not_mem, ite_self, not_false_eq_true]

/-- The other rows have the parts of the box outside the window. -/
theorem drop (filled : Filled scale box rows) (condition : Condition) :
    Filled scale (Box.drop scale box condition.attr (condition.window scale))
      (rows.filter fun row => !condition.admits row.1) := by
  refine @choose _ _ _ filled _ (Box.within_drop filled.within _ _)
    (fun part => !condition.admits part) fun part => ?_
  rw [Box.weight_drop]
  by_cases member : part ∈ box
  · obtain ⟨onScale, readings⟩ := filled.reading condition member
    simp only [member, onScale, true_and, readings, Bool.not_eq_true', Bool.not_eq_true]
  · simp only [member, false_and, weight_of_not_mem, ite_self, not_false_eq_true]

theorem paired_passOn (filled : Filled scale box rows) (target : String) :
    List.Forall₂ (Paired fun _ => Filled scale) (Workflow.passOn target box)
      (Workflow.collect target rows) := by
  by_cases notEmpty : rows ≠ []
  · rw [Workflow.passOn, if_pos (filled.volume_pos_iff.mpr notEmpty), Workflow.collect,
      if_pos notEmpty]
    exact .cons ⟨rfl, filled⟩ .nil
  · rw [Workflow.passOn, if_neg (mt filled.volume_pos_iff.mp notEmpty), Workflow.collect,
      if_neg notEmpty]
    exact .nil

end Filled

namespace Workflow

theorem groupBy_empty (fallback : String) (rules : List Rule) :
    groupBy fallback rules [] = [] := by
  induction rules with
  | nil => rfl
  | cons rule rules ih => rw [groupBy_cons, List.filter_nil, List.filter_nil, ih]; rfl

/-- Boxes are divided as their rows are grouped: piece by piece, for the same names. -/
theorem paired_divideBy {scale : Interval} (fallback : String) (rules : List Rule) {box : Box}
    {rows : List Row} (filled : Filled scale box rows) :
    List.Forall₂ (Paired fun _ => Filled scale) (divideBy scale fallback rules box).pieces
      (groupBy fallback rules rows) := by
  induction rules generalizing box rows with
  | nil =>
      rw [pieces_divideBy_nil, groupBy_nil]
      exact filled.paired_passOn fallback
  | cons rule rules ih =>
      have rest := filled.drop rule.condition
      rw [pieces_divideBy_cons, groupBy_cons]
      apply List.rel_append ((filled.keep rule.condition).paired_passOn rule.target)
      dsimp only
      -- The division of the box stops early at an empty rest; then no rows are left to group.
      split
      · rename_i empty
        have noRows := mt rest.volume_pos_iff.mpr (by omega)
        rw [Decidable.not_not.mp noRows, groupBy_empty]
        exact .nil
      · exact ih rest

end Workflow

namespace Table

variable {table : Table} {config : Config}

theorem inStep_group (table : Table) (detectCycles : Bool) (scale : Interval) :
    InStep table detectCycles (fun _ _ => Filled scale) (cutPieces scale) Workflow.group := by
  intro path name workflow box rows filled _
  rw [outcome_cutPieces]
  exact .ok (Workflow.paired_divideBy workflow.fallback workflow.rules filled)

theorem filled_full (proper : config.scale.Proper) {listed : List Part}
    (all : ∀ part, part ∈ listed ↔ part.OnScale config.scale) :
    Filled config.scale (.full config.scale) listed.zipIdx where
  within := Box.within_full proper
  same := by
    intro part
    rw [List.zipIdx_map_fst, all, ← Box.weight_pos_iff, Box.weight_full]
    split <;> simp_all

theorem count_mask {listed : List Part} {mask : List Bool}
    (masked : table.acceptMask config listed = .ok mask) :
    mask.count true =
      listed.countP fun part => decide (Accepting (table.walk config part)) := by
  rw [mask_eq_map masked, List.count, List.countP_map]
  congr 1
  funext part
  exact beq_true _

theorem accepted_eq_countP (distinct : table.accept ≠ table.reject) (proper : config.scale.Proper)
    {report : RangeReport} (evaluated : (table.evaluate config none).outcome = .ok report)
    {listed : List Part} (once : listed.Nodup)
    (all : ∀ part, part ∈ listed ↔ part.OnScale config.scale) :
    report.accepted =
      (listed.countP fun part => decide (Accepting (table.walk config part)) : Nat) := by
  obtain ⟨arrivals, reported, occupied, sighted⟩ := arrivals_of_evaluate proper evaluated
  have accepted : Box.totalVolume (arrivals.boxesAt fun sink => !(sink == table.reject)) =
      ∑ part ∈ Part.allOn config.scale with Accepting (table.walk config part),
        (occurrences none part : Int) :=
    totalVolume_boxesAt occupied sighted fun _ _ walked =>
      accepting_iff_terminal distinct walked
  have sameParts : listed.toFinset = Part.allOn config.scale := by
    ext part
    rw [List.mem_toFinset, all, Part.mem_allOn]
  rw [reportOf_eq] at reported
  subst reported
  refine accepted.trans ?_
  simp only [occurrences, Nat.cast_one, Finset.sum_const, nsmul_eq_mul, mul_one]
  rw [← sameParts, List.countP_eq_length_filter, ← List.toFinset_card_of_nodup (once.filter _),
    List.toFinset_filter]
  simp only [decide_eq_true_eq]

theorem countByTrial_eq {listed : List Part} (grid : Grid.parts config.scale = .ok listed) :
    table.countByTrial config =
      (table.acceptMask config listed).map fun mask => mask.count true := by
  simp only [countByTrial, grid]
  show (table.acceptMask config listed >>= _) = _
  cases table.acceptMask config listed <;> rfl

theorem outcome_count_eq (table : Table) (config : Config) (box : Option Box) :
    (table.count config box).outcome =
      (table.evaluate config box).outcome.map RangeReport.accepted := by
  simp only [count, Traced.outcome_bind]
  cases (table.evaluate config box).outcome <;> rfl

theorem outcome_pushPieces_or (scale : Interval) (name : String) (workflow : Workflow) (box : Box) :
    (pushPieces scale name workflow box).outcome = .error .integerTooLong ∨
      (pushPieces scale name workflow box).outcome =
        (cutPieces scale name workflow box).outcome := by
  rw [outcome_pushPieces, outcome_cutPieces]
  split
  · exact .inr rfl
  · exact .inl rfl

/-- Unless a report is too long, the evaluation of the whole scale and the mask of all parts on it
end alike. -/
theorem agree_evaluate_acceptMask (proper : config.scale.Proper) {listed : List Part}
    (all : ∀ part, part ∈ listed ↔ part.OnScale config.scale)
    (reported : (table.evaluate config none).outcome ≠ .error .integerTooLong) :
    Agree (fun _ _ => True) (table.evaluate config none).outcome
      (table.acceptMask config listed) := by
  have filled := filled_full proper all
  have positive : 0 < Box.volume (startBox config none) := by
    show 0 < Box.volume (.full config.scale)
    rw [Box.volume_full]
    exact pow_pos ((Interval.proper_iff_size_pos _).mp proper) 4
  have notEmpty : listed ≠ [] := by
    rintro rfl
    exact filled.volume_pos_iff.mp positive rfl
  have swept := agree_sweepFrom (inStep_group table config.detectCycles config.scale)
    table.depth [] config.entry _ _ filled
  simp only [evaluate, positive, if_true, Traced.outcome_bind] at reported ⊢
  rw [acceptMask_of_ne_nil notEmpty]
  rcases @sweepFrom_eq_error_or _ table config.detectCycles _ _ _
    (outcome_pushPieces_or config.scale) table.depth [] (config.entry, startBox config none)
    with failed | same
  · rw [sweep, failed] at reported
    exact absurd rfl reported
  · rw [sweep, same]
    exact swept.bind fun arrivals others _ => .ok trivial

/-- Trying every part and adding up volumes give the same count, or they fail with the same fault,
which lies in the graph of the workflows. -/
def CountsAgree (table : Table) (config : Config) : Prop :=
  (∃ number : Nat, table.countByTrial config = .ok number ∧
    (table.count config none).outcome = .ok (number : Int)) ∨
  ∃ fault, fault.InGraph ∧ table.countByTrial config = .error fault ∧
    (table.count config none).outcome = .error fault

theorem countsAgree_of_reported (distinct : table.accept ≠ table.reject)
    (detect : config.detectCycles = true) (proper : config.scale.Proper)
    (low : FitsWord config.scale.low) (high : FitsWord config.scale.high)
    (small : config.scale.size ^ 4 ≤ Grid.pointLimit)
    (reported : (table.evaluate config none).outcome ≠ .error .integerTooLong) :
    CountsAgree table config := by
  obtain ⟨listed, grid, once, all⟩ := Grid.parts_ok proper low high small
  have agree : Agree (fun _ _ => True) (table.evaluate config none).outcome
      (table.acceptMask config listed) := agree_evaluate_acceptMask proper all reported
  rw [CountsAgree, countByTrial_eq grid, outcome_count_eq]
  generalize evaluated : (table.evaluate config none).outcome = evaluation at agree
  generalize masked : table.acceptMask config listed = masking at agree
  cases agree with
  | @ok report mask _ =>
      have counted := accepted_eq_countP distinct proper evaluated once all
      rw [← count_mask masked] at counted
      exact .inl ⟨mask.count true, rfl, congrArg Except.ok counted⟩
  | error fault =>
      obtain ⟨part, _, walked⟩ := part_of_acceptMask_error masked
      exact .inr ⟨fault, walk_error detect walked, rfl, rfl⟩

/-- Trying every part and adding up volumes agree exactly if the evaluation does not stop at a
report that is too long.  It does so only at a pruned rule with a threshold that is too long, since
the volumes are no larger than a grid. -/
theorem countByTrial_agrees_iff (distinct : table.accept ≠ table.reject)
    (detect : config.detectCycles = true) (proper : config.scale.Proper)
    (low : FitsWord config.scale.low) (high : FitsWord config.scale.high)
    (small : config.scale.size ^ 4 ≤ Grid.pointLimit) :
    (CountsAgree table config ↔
      (table.count config none).outcome ≠ .error .integerTooLong) ∧
    ((table.count config none).outcome = .error .integerTooLong → Overlong table config none) ∧
    (table.ThresholdsWritten → CountsAgree table config) := by
  have stopped : (table.count config none).outcome = .error .integerTooLong ↔
      (table.evaluate config none).outcome = .error .integerTooLong := by
    rw [outcome_count_eq]
    cases (table.evaluate config none).outcome <;> simp [Except.map]
  have overlong := @overlong_of_integerTooLong table config none proper detect
  rw [ne_eq, stopped]
  refine ⟨⟨?_, countsAgree_of_reported distinct detect proper low high small⟩, overlong, ?_⟩
  · intro agree failed
    rw [← stopped] at failed
    rcases agree with ⟨number, _, counted⟩ | ⟨fault, inGraph, _, counted⟩
    · rw [failed] at counted
      cases counted
    · obtain rfl := Except.error.inj (failed.symm.trans counted)
      cases inGraph
  · intro thresholds
    apply countsAgree_of_reported distinct detect proper low high small
    intro failed
    have positive := (overlong failed).1
    have limit : Writable Grid.pointLimit := by decide +kernel
    apply not_overlong_of_written thresholds _ (overlong failed)
    refine limit.of_le (Int.le_of_lt positive) ?_
    show Box.volume (.full config.scale) ≤ _
    rw [Box.volume_full]
    exact small

theorem countByTrial_agrees_iff_forked :
    let config : Config := { Config.usual with scale := ⟨1, 3⟩ }
    (forked.accept ≠ forked.reject ∧ FitsWord 1 ∧ FitsWord 3 ∧
      config.scale.size ^ 4 ≤ Grid.pointLimit) ∧
    forked.countByTrial config = .error (.cyclicWorkflow ["in", "in"]) ∧
    (forked.count config none).outcome = .error (.cyclicWorkflow ["in", "in"]) := by
  intro config
  have distinct : forked.accept ≠ forked.reject := by decide
  have small : config.scale.size ^ 4 ≤ Grid.pointLimit := by decide
  have thresholds : forked.ThresholdsWritten := by decide +kernel
  have tried : forked.countByTrial config = .error (.cyclicWorkflow ["in", "in"]) := by
    decide +kernel
  refine ⟨⟨distinct, by decide, by decide, small⟩, tried, ?_⟩
  rcases (@countByTrial_agrees_iff forked config distinct rfl (by decide) (by decide) (by decide)
    small).2.2 thresholds with ⟨number, counted, _⟩ | ⟨fault, _, failed, counted⟩
  · rw [tried] at counted
    cases counted
  · rw [Except.error.inj (tried.symm.trans failed)]
    exact counted

def overshooting : Table where
  entries := [("in", Workflow.overshooting)]
  accept := "A"
  reject := "R"
  names_nodup := by decide
  accept_not_name := by decide
  reject_not_name := by decide

/-- No part is accepted, and the trial says so, but the evaluation stops at the rule. -/
theorem counts_disagree_overshooting :
    let config : Config := { Config.usual with scale := ⟨1, 4⟩ }
    overshooting.countByTrial config = .ok 0 ∧
    (overshooting.count config none).outcome = .error .integerTooLong ∧
    ¬CountsAgree overshooting config := by
  intro config
  have tried : overshooting.countByTrial config = .ok 0 := by decide +kernel
  have stopped : (overshooting.count config none).outcome = .error .integerTooLong := by
    decide +kernel
  refine ⟨tried, stopped, ?_⟩
  intro agree
  rcases agree with ⟨number, _, counted⟩ | ⟨fault, _, failed, _⟩
  · rw [stopped] at counted
    cases counted
  · rw [tried] at failed
    cases failed

end Table

end PartSorting
