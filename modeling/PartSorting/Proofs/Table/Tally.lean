import Mathlib.Algebra.BigOperators.Group.List.Basic
import Mathlib.Algebra.Group.Prod
import Mathlib.Algebra.Order.Group.Multiset
import Mathlib.Algebra.Ring.Int.Defs
import PartSorting.Proofs.Box.Volume
import PartSorting.Proofs.Table.Report
import PartSorting.Proofs.Table.Worklist

/-! # Reports as sums of what arrives

What a report says can be added up: the volumes, the number of visits, and the accepted boxes when
their order is left out.  So the report on several arrivals is the sum of their contributions, in
whatever order they come. -/

set_option autoImplicit false

namespace PartSorting

/-- A start volume, accepted and rejected volumes, a number of visits, and accepted boxes. -/
abbrev Tally := Int × Int × Int × Nat × Multiset Box

namespace RangeReport

structure SameButOrder (first second : RangeReport) : Prop where
  start : first.start = second.start
  accepted : first.accepted = second.accepted
  rejected : first.rejected = second.rejected
  visits : first.visits = second.visits
  boxes : first.boxes.Perm second.boxes

def tally (report : RangeReport) : Tally :=
  (report.start, report.accepted, report.rejected, report.visits, report.boxes)

def absorb (table : Table) (report : RangeReport) (arrivals : Arrivals Box) : RangeReport :=
  let arrived := table.reportOf 0 arrivals
  { start := report.start
    accepted := report.accepted + arrived.accepted
    rejected := report.rejected + arrived.rejected
    boxes := report.boxes ++ arrived.boxes
    visits := report.visits + arrived.visits }

theorem sameButOrder_of_tally {first second : RangeReport} (same : first.tally = second.tally) :
    SameButOrder first second := by
  simp only [tally, Prod.mk.injEq, Multiset.coe_eq_coe] at same
  obtain ⟨start, accepted, rejected, visits, boxes⟩ := same
  exact ⟨start, accepted, rejected, visits, boxes⟩

end RangeReport

theorem Arrivals.boxesAt_append (first second : Arrivals Box) (kind : String → Bool) :
    (first.append second).boxesAt kind = first.boxesAt kind ++ second.boxesAt kind := by
  simp only [boxesAt, append, List.filter_append, List.map_append]

namespace RangeReport

variable (table : Table)

theorem reportOf_eq_absorb (start : Int) (arrivals : Arrivals Box) :
    table.reportOf start arrivals = (blank start).absorb table arrivals := by
  simp only [absorb, blank, Table.reportOf_eq, Int.zero_add, Nat.zero_add, List.nil_append]

theorem absorb_append (report : RangeReport) (first second : Arrivals Box) :
    (report.absorb table first).absorb table second =
      report.absorb table (first.append second) := by
  have visits : (first.append second).visits = first.visits + second.visits := rfl
  simp only [absorb, Table.reportOf_eq, Arrivals.boxesAt_append, Box.totalVolume_append, visits,
    Int.add_assoc, List.append_assoc, Nat.add_assoc]

theorem deliver_eq_absorb (report : RangeReport) (sink : String) (box : Box) :
    report.deliver table sink box = report.absorb table (.atSink sink box) := by
  simp only [deliver, absorb, Table.reportOf_eq, Arrivals.boxesAt, Arrivals.atSink]
  by_cases rejecting : (sink == table.reject) = true
  · simp [rejecting, Box.totalVolume]
  · simp [rejecting, Box.totalVolume]

theorem visit_eq_absorb (report : RangeReport) :
    report.visit = report.absorb table ⟨[], 1⟩ := by
  simp [visit, absorb, Table.reportOf_eq, Arrivals.boxesAt, Box.totalVolume]

theorem visit_absorb (report : RangeReport) (arrivals : Arrivals Box) :
    report.visit.absorb table arrivals = (report.absorb table arrivals).visit := by
  simp only [visit, absorb, Nat.add_right_comm]

/-- Adding arrivals one after another to a report with one more visit adds all of them. -/
theorem foldl_absorb (report : RangeReport) (results : List (Arrivals Box)) :
    results.foldl (absorb table) report.visit = report.absorb table (.afterVisit results) := by
  induction results generalizing report with
  | nil => exact visit_eq_absorb table report
  | cons result results ih =>
      rw [List.foldl_cons, visit_absorb, ih, absorb_append]
      rfl

theorem tally_absorb (report : RangeReport) (arrivals : Arrivals Box) :
    (report.absorb table arrivals).tally =
      report.tally + (table.reportOf 0 arrivals).tally := by
  simp only [absorb, tally, Table.reportOf_eq, Prod.mk_add_mk, Int.add_zero, Multiset.coe_add]

end RangeReport

namespace Arrivals

variable (table : Table)

def tally (arrivals : Arrivals Box) : Tally :=
  (table.reportOf 0 arrivals).tally

theorem tally_append (first second : Arrivals Box) :
    (first.append second).tally table = first.tally table + second.tally table := by
  simp only [tally]
  rw [RangeReport.reportOf_eq_absorb, ← RangeReport.absorb_append, RangeReport.tally_absorb,
    ← RangeReport.reportOf_eq_absorb]

theorem tally_afterVisit (results : List (Arrivals Box)) :
    (afterVisit results).tally table =
      tally table ⟨[], 1⟩ + (results.map (tally table)).sum := by
  induction results with
  | nil => exact (add_zero (tally table ⟨[], 1⟩)).symm
  | cons result results ih =>
      have first : afterVisit (result :: results) = result.append (afterVisit results) := rfl
      rw [first, tally_append, ih, List.map_cons, List.sum_cons, add_left_comm]

end Arrivals

end PartSorting
