import PartSorting.Proofs.Session.Counting
import PartSorting.Proofs.Table.Shrinking
import PartSorting.Proofs.Workflow.Partition

/-! # No volume is lost on the way

The pieces of a box within the scale have its volume together, so a finished sweep delivers the
volume that it started with.  An evaluation that starts with the whole of an improper scale is the
exception: there are no parts, but the volume is positive, and it is lost at the first rule. -/

set_option autoImplicit false

namespace PartSorting

open Finset

/-- The volumes of a report balance: what was accepted and rejected is what started, and this is
the number of parts to be evaluated, none on an improper scale. -/
structure RangeReport.Balanced (config : Config) (box : Option Box) (report : RangeReport) :
    Prop where
  total : report.accepted + report.rejected = report.start
  counted : report.start = ∑ part ∈ Part.allOn config.scale, (Table.occurrences box part : Int)
  empty : ¬config.scale.Proper → report.start = 0

namespace Table

variable {table : Table} {config : Config} {box : Option Box} {detectCycles : Bool}

inductive MeetsRule (table : Table) (detectCycles : Bool) : List String → String → Prop where
  | here {path : List String} {name : String} {workflow : Workflow}
      (arrived : table.arrive detectCycles path name = .ok (some workflow))
      (ruled : workflow.rules ≠ []) : MeetsRule table detectCycles path name
  | later {path : List String} {name : String} {workflow : Workflow}
      (arrived : table.arrive detectCycles path name = .ok (some workflow))
      (unruled : workflow.rules = [])
      (next : MeetsRule table detectCycles (path ++ [name]) workflow.fallback) :
      MeetsRule table detectCycles path name

theorem not_meetsRule_of_none {path : List String} {name : String}
    (arrived : table.arrive detectCycles path name = .ok none) :
    ¬MeetsRule table detectCycles path name := by
  intro meets
  cases meets with
  | here arrivedToo => exact absurd (arrived.symm.trans arrivedToo) (by simp)
  | later arrivedToo => exact absurd (arrived.symm.trans arrivedToo) (by simp)

theorem meetsRule_iff_of_unruled {path : List String} {name : String} {workflow : Workflow}
    (arrived : table.arrive detectCycles path name = .ok (some workflow))
    (unruled : workflow.rules = []) :
    MeetsRule table detectCycles path name ↔
      MeetsRule table detectCycles (path ++ [name]) workflow.fallback := by
  constructor
  · intro meets
    cases meets with
    | here arrivedToo ruled =>
        obtain rfl := Option.some.inj (Except.ok.inj (arrived.symm.trans arrivedToo))
        exact absurd unruled ruled
    | later arrivedToo _ next =>
        obtain rfl := Option.some.inj (Except.ok.inj (arrived.symm.trans arrivedToo))
        exact next
  · exact .later arrived unruled

def deliveredVolume (arrivals : Arrivals Box) : Int :=
  Box.totalVolume (arrivals.deliveries.map Prod.snd)

theorem deliveredVolume_afterVisit {pieces : List (String × Box)} {results : List (Arrivals Box)}
    (all : List.Forall₂ (fun piece result => deliveredVolume result = Box.volume piece.2)
      pieces results) :
    deliveredVolume (.afterVisit results) = Box.totalVolume (pieces.map Prod.snd) := by
  rw [deliveredVolume, Arrivals.deliveries_afterVisit]
  induction all with
  | nil => rfl
  | cons first _ ih =>
      rw [List.flatMap_cons, List.map_append, Box.totalVolume_append, ih, List.map_cons,
        Box.totalVolume]
      exact congrArg (· + _) first

theorem deliveredVolume_sweepFrom {scale : Interval} {depth : Nat} {path : List String}
    {name : String} {load : Box} {arrivals : Arrivals Box} (within : Box.Within scale load)
    (swept : (table.sweepFrom detectCycles (pushPieces scale) depth path (name, load)).outcome =
      .ok arrivals) :
    deliveredVolume arrivals = Box.volume load := by
  induction depth generalizing path name load arrivals with
  | zero => contradiction
  | succ depth ih =>
      rcases sweepFrom_ok_cases swept with
        ⟨_, rfl⟩ | ⟨rest, workflow, pieces, results, depthEq, _, divided, followed, rfl⟩
      · exact Int.add_zero _
      · obtain rfl := Nat.succ.inj depthEq
        have withins : ∀ piece ∈ pieces.reverse, Box.Within scale piece.2 := fun piece member =>
          within_of_pushPieces within divided piece (List.mem_reverse.mp member)
        obtain rfl := eq_divide_of_pushPieces divided
        have all := ((List.forall₂_and_left _ _).mpr ⟨withins, followed⟩).imp
          fun piece result both => ih both.1 both.2
        rw [deliveredVolume_afterVisit all, List.map_reverse, Box.totalVolume_reverse]
        exact Workflow.totalVolume_pieces within

/-- The whole of an improper scale is delivered unless it comes to a rule, where it is lost. -/
theorem deliveredVolume_sweepFrom_full {scale : Interval} (improper : ¬scale.Proper)
    (positive : 0 < Box.volume (.full scale)) {depth : Nat} {path : List String} {name : String}
    {arrivals : Arrivals Box}
    (swept : (table.sweepFrom detectCycles (pushPieces scale) depth path
      (name, .full scale)).outcome = .ok arrivals) :
    (MeetsRule table detectCycles path name → deliveredVolume arrivals = 0) ∧
      (¬MeetsRule table detectCycles path name →
        deliveredVolume arrivals = Box.volume (.full scale)) := by
  induction depth generalizing path name arrivals with
  | zero => contradiction
  | succ depth ih =>
      rcases sweepFrom_ok_cases swept with
        ⟨arrived, rfl⟩ | ⟨rest, workflow, pieces, results, depthEq, arrived, divided, followed, rfl⟩
      · exact ⟨fun meets => absurd meets (not_meetsRule_of_none arrived), fun _ => Int.add_zero _⟩
      · obtain rfl := Nat.succ.inj depthEq
        obtain rfl := eq_divide_of_pushPieces divided
        rw [Workflow.pieces_of_improper improper] at followed
        by_cases unruled : workflow.rules = []
        · rw [if_pos unruled, Workflow.passOn, if_pos positive, List.reverse_singleton] at followed
          obtain ⟨result, others, follow, nothing, rfl⟩ := List.forall₂_cons_left_iff.mp followed
          obtain rfl := List.forall₂_nil_left_iff.mp nothing
          have same : deliveredVolume (.afterVisit [result]) = deliveredVolume result := by
            rw [deliveredVolume, Arrivals.deliveries_afterVisit, List.flatMap_singleton,
              deliveredVolume]
          rw [same, meetsRule_iff_of_unruled arrived unruled]
          exact ih follow
        · rw [if_neg unruled] at followed
          obtain rfl := List.forall₂_nil_left_iff.mp followed
          exact ⟨fun _ => rfl, fun spared => absurd (.here arrived unruled) spared⟩

theorem accepted_add_rejected (table : Table) (start : Int) (arrivals : Arrivals Box) :
    (table.reportOf start arrivals).accepted + (table.reportOf start arrivals).rejected =
      deliveredVolume arrivals := by
  obtain ⟨deliveries, visits⟩ := arrivals
  simp only [reportOf_eq, Arrivals.boxesAt, deliveredVolume]
  induction deliveries with
  | nil => rfl
  | cons delivery deliveries ih =>
      cases rejecting : delivery.1 == table.reject <;>
        simp only [List.filter_cons, rejecting, Bool.not_true, Bool.not_false, Bool.false_eq_true,
          if_true, if_false, List.map_cons, Box.totalVolume] <;>
        omega

theorem start_eq_volume {report : RangeReport}
    (evaluated : (table.evaluate config box).outcome = .ok report) :
    report.start = Box.volume (startBox config box) := by
  obtain ⟨arrivals, rfl, _⟩ := evaluate_ok_cases evaluated
  rfl

/-- From a start box within the scale all volume arrives. -/
theorem total_of_within (within : Box.Within config.scale (startBox config box))
    {report : RangeReport} (evaluated : (table.evaluate config box).outcome = .ok report) :
    report.accepted + report.rejected = report.start := by
  have nonneg : 0 ≤ Box.volume (startBox config box) := by
    rw [volume_of_within_startBox within]
    exact sum_nonneg fun part _ => Int.natCast_nonneg _
  obtain ⟨arrivals, rfl, ⟨empty, rfl⟩ | ⟨_, swept⟩⟩ := evaluate_ok_cases evaluated
  · rw [accepted_add_rejected]
    exact (Int.le_antisymm (Int.not_lt.mp empty) nonneg).symm
  · rw [accepted_add_rejected]
    exact deliveredVolume_sweepFrom within swept

theorem balanced_of_within (within : Box.Within config.scale (startBox config box))
    {report : RangeReport} (evaluated : (table.evaluate config box).outcome = .ok report) :
    report.Balanced config box where
  total := total_of_within within evaluated
  counted := (start_eq_volume evaluated).trans (volume_of_within_startBox within)
  empty := by
    intro improper
    rw [start_eq_volume evaluated, volume_of_within_startBox within,
      Part.allOn_of_improper improper, sum_empty]

theorem within_startBox_or_improper (config : Config) (box : Option Box) :
    Box.Within config.scale (startBox config box) ∧ (box = none → config.scale.Proper) ∨
      box = none ∧ ¬config.scale.Proper := by
  cases box with
  | some given => exact .inl ⟨Box.within_inter_full _ given, nofun⟩
  | none =>
      by_cases proper : config.scale.Proper
      · exact .inl ⟨Box.within_full proper, fun _ => proper⟩
      · exact .inr ⟨rfl, proper⟩

theorem balanced_of_size_eq_zero (empty : config.scale.size = 0) {report : RangeReport}
    (evaluated : (table.evaluate config none).outcome = .ok report) :
    report.Balanced config none := by
  have noVolume : ¬0 < Box.volume (startBox config none) :=
    fun positive => (Box.volume_full_pos_iff config.scale).mp positive empty
  have improper : ¬config.scale.Proper := by
    rw [Interval.proper_iff_size_pos]
    omega
  have start : report.start = 0 := by
    rw [start_eq_volume evaluated]
    show Box.volume (.full config.scale) = 0
    rw [Box.volume_full, empty]
    rfl
  obtain ⟨arrivals, reported, ⟨_, rfl⟩ | ⟨positive, _⟩⟩ := evaluate_ok_cases evaluated
  · refine ⟨?_, ?_, fun _ => start⟩
    · rw [start, reported, accepted_add_rejected]
      rfl
    · rw [start, Part.allOn_of_improper improper, sum_empty]
  · exact absurd positive noVolume

/-- With the whole of an improper scale that has a volume, this volume arrives exactly if it comes
to no rule. -/
theorem total_iff_of_size_neg (negative : config.scale.size < 0) {report : RangeReport}
    (evaluated : (table.evaluate config none).outcome = .ok report) :
    0 < report.start ∧
      (report.accepted + report.rejected = report.start ↔
        ¬MeetsRule table config.detectCycles [] config.entry) := by
  have positive : 0 < Box.volume (startBox config none) :=
    (Box.volume_full_pos_iff config.scale).mpr (Int.ne_of_lt negative)
  have improper : ¬config.scale.Proper := by
    rw [Interval.proper_iff_size_pos]
    omega
  obtain ⟨arrivals, rfl, ⟨noVolume, _⟩ | ⟨_, swept⟩⟩ := evaluate_ok_cases evaluated
  · exact absurd positive noVolume
  · obtain ⟨lost, kept⟩ := deliveredVolume_sweepFrom_full improper positive swept
    refine ⟨positive, ?_⟩
    rw [accepted_add_rejected]
    constructor
    · intro total meets
      rw [lost meets] at total
      exact absurd total (Int.ne_of_lt positive)
    · exact kept

/-- The volumes of a report balance exactly if the evaluation did not start with the whole of a
scale whose size is negative.  Even then as much arrives as has started if no rule is met. -/
theorem balanced_iff {report : RangeReport}
    (evaluated : (table.evaluate config box).outcome = .ok report) :
    (report.Balanced config box ↔ (box = none → 0 ≤ config.scale.size)) ∧
    (report.accepted + report.rejected = report.start ↔
      (box = none →
        0 ≤ config.scale.size ∨ ¬MeetsRule table config.detectCycles [] config.entry)) := by
  rcases within_startBox_or_improper config box with ⟨within, proper⟩ | ⟨rfl, improper⟩
  · have balanced := balanced_of_within within evaluated
    have nonneg : box = none → 0 ≤ config.scale.size := fun whole =>
      Int.le_of_lt ((Interval.proper_iff_size_pos _).mp (proper whole))
    exact ⟨iff_of_true balanced nonneg, iff_of_true balanced.total fun whole => .inl (nonneg whole)⟩
  · by_cases nonneg : 0 ≤ config.scale.size
    · have empty : config.scale.size = 0 := by
        rw [Interval.proper_iff_size_pos] at improper
        omega
      have balanced := balanced_of_size_eq_zero empty evaluated
      exact ⟨iff_of_true balanced fun _ => nonneg, iff_of_true balanced.total fun _ => .inl nonneg⟩
    · obtain ⟨positive, total⟩ := total_iff_of_size_neg (Int.not_le.mp nonneg) evaluated
      have unbalanced : ¬report.Balanced config none := fun balanced =>
        absurd (balanced.empty improper) (Int.ne_of_gt positive)
      refine ⟨iff_of_false unbalanced fun allowed => nonneg (allowed rfl), ?_⟩
      rw [total]
      simp only [nonneg, false_or, forall_const]

def oneRule : Table where
  entries := [("in", ⟨"in", [⟨⟨.x, .lessThan, 5⟩, "A"⟩], "R"⟩)]
  accept := "A"
  reject := "R"
  names_nodup := by decide
  accept_not_name := by decide
  reject_not_name := by decide

theorem balanced_iff_oneRule :
    let config : Config := { Config.usual with scale := ⟨1, 9⟩ }
    let box : Box := ⟨[⟨3, 7⟩, ⟨5, 12⟩], [⟨0, 1⟩], [⟨9, 9⟩], [⟨4, 4⟩, ⟨2, 1⟩]⟩
    let report : RangeReport := ⟨10, 2, 8, [⟨[⟨3, 4⟩], [⟨1, 1⟩], [⟨9, 9⟩], [⟨4, 4⟩]⟩], 1⟩
    (oneRule.evaluate config (some box)).outcome = .ok report ∧
      report.Balanced config (some box) := by
  intro config box report
  have evaluated : (oneRule.evaluate config (some box)).outcome = .ok report := by
    decide +kernel
  exact ⟨evaluated, (balanced_iff evaluated).1.mpr nofun⟩

/-- On a scale whose bounds are the wrong way round there is no part to be evaluated, and yet a
volume starts, which a rule then makes vanish. -/
theorem evaluate_inverted :
    let config : Config := { Config.usual with scale := ⟨4, 1⟩ }
    let report : RangeReport := ⟨16, 0, 0, [], 1⟩
    (oneRule.evaluate config none).outcome = .ok report ∧
      (∀ part, ¬InScope config none part) ∧
      report.accepted + report.rejected ≠ report.start ∧
      ¬report.Balanced config none := by
  intro config report
  have evaluated : (oneRule.evaluate config none).outcome = .ok report := by
    decide +kernel
  have lost : report.accepted + report.rejected ≠ report.start := by decide
  refine ⟨evaluated, ?_, lost, fun balanced => lost balanced.total⟩
  intro part inScope
  have onScale := inScope.1 .x
  simp only [Interval.mem_def, config] at onScale
  omega

end Table

end PartSorting
