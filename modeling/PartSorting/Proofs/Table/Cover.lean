import PartSorting.Proofs.Table.Report

/-! # The accepted boxes cover the accepted parts

The accepted boxes of a report hold the parts of the start box whose walks accept them and no
others.  They do not overlap: each of these parts is in exactly one of them, as often as in the
start box.  The judgement accepts the same parts unless some of their ratings are too long to be
written. -/

set_option autoImplicit false

namespace PartSorting

/-- The boxes of a list hold exactly the parts that are covered, each in a single box, where it
occurs as often as in the start box; all their intervals are proper and lie on the scale. -/
structure ExactCover (scale : Interval) (start : Box) (covered : Part → Prop)
    (boxes : List Box) : Prop where
  once : ∀ part, covered part →
    boxes.countP (fun box => decide (part ∈ box)) = 1 ∧
      ∀ box ∈ boxes, part ∈ box → Box.weight box part = Box.weight start part
  outside : ∀ part, ¬covered part → ∀ box ∈ boxes, part ∉ box
  within : ∀ box ∈ boxes, Box.Within scale box

namespace Table

variable {table : Table} {config : Config} {box : Option Box}

theorem exactCover_boxesAt {arrivals : Arrivals Box} {kind : String → Bool} {ends : Part → Prop}
    [DecidablePred ends]
    (occupied : ∀ delivery ∈ arrivals.deliveries, Box.Occupied config.scale delivery.2)
    (sighted : ∀ part, SightedAtEnd (table.walk config part)
      (Box.weight (startBox config box) part)
      (sightings (fun box => Box.weight box part) arrivals.deliveries))
    (endsThere : ∀ part verdict, table.walk config part = .ok verdict →
      (kind verdict.terminal = true ↔ ends part)) :
    ExactCover config.scale (startBox config box)
      (fun part => InScope config box part ∧ ends part) (arrivals.boxesAt kind) where
  once := by
    intro part covered
    obtain ⟨inScope, endsHere⟩ := covered
    have present := weight_startBox_pos_iff.mpr inScope
    constructor
    · have counted := countP_boxesAt (sighted part) (endsThere part)
      rw [if_pos ⟨present, endsHere⟩] at counted
      simpa only [Box.weight_pos_iff] using counted
    · intro other member inside
      have occurs := Box.weight_pos_iff.mpr inside
      exact (weight_of_mem_boxesAt (sighted part) (endsThere part) member occurs).1
  outside := by
    intro part notCovered other member inside
    have occurs := Box.weight_pos_iff.mpr inside
    obtain ⟨same, endsHere⟩ :=
      weight_of_mem_boxesAt (sighted part) (endsThere part) member occurs
    rw [same] at occurs
    exact notCovered ⟨weight_startBox_pos_iff.mp occurs, endsHere⟩
  within := within_boxesAt occupied

/-- The accepted boxes of an evaluation are an exact cover of the parts in its scope whose walks
accept them.  They are one of the parts that the judgement accepts exactly if the ratings of all
parts in scope whose walks accept them can be written. -/
theorem exactCover_evaluate_iff (distinct : table.accept ≠ table.reject)
    (proper : config.scale.Proper) {report : RangeReport}
    (evaluated : (table.evaluate config box).outcome = .ok report) :
    ExactCover config.scale (startBox config box)
      (fun part => InScope config box part ∧ Accepting (table.walk config part))
      report.boxes ∧
    report.accepted = Box.totalVolume report.boxes ∧
    (ExactCover config.scale (startBox config box)
      (fun part => InScope config box part ∧ Accepting (table.classify config part))
      report.boxes ↔
        ∀ part, InScope config box part → Accepting (table.walk config part) →
          part.Spellable) := by
  obtain ⟨arrivals, reported, occupied, sighted⟩ := arrivals_of_evaluate proper evaluated
  have cover : ExactCover config.scale (startBox config box)
      (fun part => InScope config box part ∧ Accepting (table.walk config part))
      (arrivals.boxesAt fun sink => !(sink == table.reject)) := by
    apply exactCover_boxesAt occupied sighted
    intro part verdict walked
    exact accepting_iff_terminal distinct walked
  rw [reportOf_eq] at reported
  subst reported
  refine ⟨cover, rfl, ?_, ?_⟩
  · intro judged part inScope accepts
    -- Whoever is not judged to be accepted is in no box, but the walk has left the part in one.
    have counted := (cover.once part ⟨inScope, accepts⟩).1
    obtain ⟨holder, member, holds⟩ := List.countP_pos_iff.mp (counted ▸ Nat.one_pos)
    have covered : InScope config box part ∧ Accepting (table.classify config part) := by
      by_contra notCovered
      exact judged.outside part notCovered holder member (of_decide_eq_true holds)
    exact (accepting_classify_iff.mp covered.2).2
  · intro spellable
    have same : (fun part => InScope config box part ∧ Accepting (table.walk config part)) =
        fun part => InScope config box part ∧ Accepting (table.classify config part) := by
      funext part
      refine propext (and_congr_right fun inScope => ?_)
      rw [accepting_classify_iff]
      exact ⟨fun accepts => ⟨accepts, spellable part inScope accepts⟩, fun both => both.1⟩
    rw [← same]
    exact cover

theorem exactCover_evaluate_iff_twoStage :
    let config : Config := { Config.usual with scale := ⟨1, 4⟩ }
    let boxes : List Box := [⟨[⟨1, 2⟩], [⟨3, 4⟩], [⟨1, 4⟩], [⟨1, 4⟩]⟩]
    twoStage.accept ≠ twoStage.reject ∧
    (twoStage.evaluate config none).outcome = .ok ⟨256, 64, 192, boxes, 2⟩ ∧
    ExactCover ⟨1, 4⟩ (.full ⟨1, 4⟩)
      (fun part => InScope config none part ∧ Accepting (twoStage.classify config part))
      boxes := by
  intro config boxes
  have distinct : twoStage.accept ≠ twoStage.reject := by decide
  have evaluated : (twoStage.evaluate config none).outcome = .ok ⟨256, 64, 192, boxes, 2⟩ := by
    decide +kernel
  have low : Writable config.scale.low := by decide +kernel
  have high : Writable config.scale.high := by decide +kernel
  refine ⟨distinct, evaluated, ?_⟩
  apply (exactCover_evaluate_iff distinct (by decide) evaluated).2.2.mpr
  intro part inScope _
  exact Part.spellable_of_onScale low high inScope.1

/-- The only part in scope is in an accepted box, but it is not judged to be accepted. -/
theorem not_exactCover_pinned :
    (accepting.evaluate vast (some pinned)).outcome = .ok ⟨1, 1, 0, [pinned], 1⟩ ∧
    accepting.classify vast .outsized = .error .integerTooLong ∧
    ¬ExactCover vast.scale (startBox vast (some pinned))
      (fun part => InScope vast (some pinned) part ∧ Accepting (accepting.classify vast part))
      [pinned] := by
  refine ⟨evaluate_pinned, ?_, ?_⟩
  · rw [classify_of_walk_ok walk_outsized, if_neg Part.not_spellable_outsized]
  · intro cover
    exact cover.outside .outsized (fun covered => not_accepting_outsized covered.2) pinned
      (List.mem_singleton_self _) outsized_mem_pinned

end Table

end PartSorting
