import PartSorting.Proofs.Table.Failure
import PartSorting.Proofs.Table.Mask
import PartSorting.Proofs.Table.Order

/-! # What an order of the workflows guarantees

When the workflows that can be reached from the entry have an order, no evaluation that starts
there meets a cycle or an unknown name, whether cycles are detected or not.  Every part walks to a
sink and every mask is made.  Verdicts are given and boxes are evaluated to the end unless a number
in a report is too long to be written. -/

set_option autoImplicit false

namespace PartSorting.Table

variable {table : Table} {config : Config} {order : List String}

theorem Ahead.undivided_of_sweepFrom {Load : Type} {detectCycles : Bool} {divide : Divider Load}
    (routed : ∀ name workflow load pieces, (divide name workflow load).outcome = .ok pieces →
      ∀ piece ∈ pieces, piece.1 ∈ workflow.targets)
    {path : List String} {depth : Nat} {name : String} {load : Load} {fault : Fault}
    (ahead : table.Ahead path order depth name)
    (failed : (table.sweepFrom detectCycles divide depth path (name, load)).outcome =
      .error fault) :
    ∃ last workflow, Reaches table detectCycles divide ⟨path, name, load⟩ last ∧
      table.arrive detectCycles last.path last.name = .ok (some workflow) ∧
      (divide last.name workflow last.load).outcome = .error fault := by
  induction depth generalizing path order name load with
  | zero => exact absurd ahead.short (Nat.not_lt_zero _)
  | succ depth ih =>
      rcases sweepFrom_error_cases failed with ⟨impossible, _⟩ | ⟨rest, depthEq, cause⟩
      · exact absurd impossible (Nat.succ_ne_zero _)
      · obtain rfl := Nat.succ.inj depthEq
        rcases ahead.arrive detectCycles with
          ⟨_, arrived⟩ | ⟨workflow, later, _, arrived, _, next⟩
        · rw [arrived] at cause
          rcases cause with impossible | ⟨_, impossible, _⟩
          · contradiction
          · exact absurd impossible (by simp)
        · rw [arrived] at cause
          rcases cause with
            impossible | ⟨_, same, undivided | ⟨pieces, divided, piece, member, swept⟩⟩
          · contradiction
          · obtain rfl := Option.some.inj (Except.ok.inj same)
            exact ⟨_, workflow, .refl, arrived, undivided⟩
          · obtain rfl := Option.some.inj (Except.ok.inj same)
            have target := routed _ _ _ _ divided piece member
            obtain ⟨last, other, reached, lastArrived, undivided⟩ := ih (next _ target) swept
            exact ⟨last, other, .head (.piece arrived divided member) reached, lastArrived,
              undivided⟩

theorem walk_of_order (searched : table.order config.entry = .ok order) (part : Part) :
    ∃ verdict, table.walk config part = .ok verdict ∧ verdict.path.Sublist order ∧
      verdict.path.head? = order.head? := by
  obtain ⟨verdict, passed, walked, samePath, sublist, first⟩ :=
    (Ahead.ofOrder searched).walkFrom part
  rw [List.nil_append] at samePath
  rw [← samePath] at sublist first
  exact ⟨verdict, walked, sublist, first.trans (ordered_order searched).2.symm⟩

theorem acceptMask_of_order (searched : table.order config.entry = .ok order)
    (parts : List Part) : ∃ mask, table.acceptMask config parts = .ok mask := by
  cases outcome : table.acceptMask config parts with
  | ok mask => exact ⟨mask, rfl⟩
  | error fault =>
      obtain ⟨part, _, failed⟩ := part_of_acceptMask_error outcome
      obtain ⟨verdict, walked, _⟩ := walk_of_order searched part
      rw [failed] at walked
      cases walked

theorem overlong_of_order (searched : table.order config.entry = .ok order) {box : Option Box}
    {fault : Fault} (failed : (table.evaluate config box).outcome = .error fault) :
    fault = .integerTooLong ∧ Overlong table config box := by
  obtain ⟨positive, swept⟩ := evaluate_error_cases failed
  obtain ⟨last, workflow, reached, arrived, undivided⟩ :=
    (Ahead.ofOrder searched).undivided_of_sweepFrom (fun _ _ _ _ => targets_of_pushPieces) swept
  exact overlong_of_undivided positive reached arrived undivided

/-- An entry whose workflows have an order is safe but for reports that are too long: every part
walks along names of the order in their sequence from the first one on and gets its verdict if its
ratings can be written, every mask is made, and an evaluation of boxes succeeds unless it comes to a
division whose report is too long.  There is none if the thresholds of the table and the start
volume can be written. -/
theorem safe_of_order (searched : table.order config.entry = .ok order) :
    order.Nodup ∧
    order.head? = (if table.isSink config.entry then none else some config.entry) ∧
    (∀ part, ∃ verdict, table.walk config part = .ok verdict ∧ verdict.path.Sublist order ∧
      verdict.path.head? = order.head? ∧
      table.classify config part =
        if part.Spellable then .ok verdict else .error .integerTooLong) ∧
    (∀ parts, ∃ mask, table.acceptMask config parts = .ok mask) ∧
    ∀ box,
      ((∃ report, (table.evaluate config box).outcome = .ok report) ↔
        ¬Overlong table config box) ∧
      (∀ fault, (table.evaluate config box).outcome = .error fault → fault = .integerTooLong) ∧
      (table.ThresholdsWritten → Writable (Box.volume (startBox config box)) →
        ∃ report, (table.evaluate config box).outcome = .ok report) := by
  obtain ⟨ordered, first⟩ := ordered_order searched
  refine ⟨ordered.nodup, first, ?_, acceptMask_of_order searched, ?_⟩
  · intro part
    obtain ⟨verdict, walked, sublist, sameHead⟩ := walk_of_order searched part
    exact ⟨verdict, walked, sublist, sameHead, classify_of_walk_ok walked⟩
  intro box
  have finished : ¬Overlong table config box →
      ∃ report, (table.evaluate config box).outcome = .ok report := by
    intro notOverlong
    cases outcome : (table.evaluate config box).outcome with
    | ok report => exact ⟨report, rfl⟩
    | error fault => exact absurd (overlong_of_order searched outcome).2 notOverlong
  refine ⟨⟨?_, finished⟩, fun fault failed => (overlong_of_order searched failed).1, ?_⟩
  · intro evaluated overlong
    obtain ⟨report, evaluated⟩ := evaluated
    obtain ⟨fault, failed⟩ := evaluate_error_of_overlong overlong
    rw [evaluated] at failed
    cases failed
  · exact fun thresholds volume => finished (not_overlong_of_written thresholds volume)

theorem safe_of_order_twoStage :
    twoStage.order "in" = .ok ["in", "mid"] ∧
    (∃ verdict, twoStage.classify Config.usual ⟨2, 3, 1, 1⟩ = .ok verdict ∧
      verdict.path.Sublist ["in", "mid"]) ∧
    ∃ report, (twoStage.evaluate Config.usual none).outcome = .ok report := by
  have searched : twoStage.order Config.usual.entry = .ok ["in", "mid"] := by decide
  obtain ⟨_, _, judged, _, evaluated⟩ := safe_of_order searched
  obtain ⟨verdict, _, sublist, _, classified⟩ := judged ⟨2, 3, 1, 1⟩
  have spellable : Part.Spellable ⟨2, 3, 1, 1⟩ := by decide +kernel
  have thresholds : twoStage.ThresholdsWritten := by decide +kernel
  have volume : Writable (Box.volume (startBox Config.usual none)) := by decide +kernel
  rw [if_pos spellable] at classified
  exact ⟨searched, ⟨verdict, classified, sublist⟩, (evaluated none).2.2 thresholds volume⟩

/-- The only workflow stands in an order, but the volume of its piece is too long. -/
theorem order_rejecting_wide :
    rejecting.order wide.entry = .ok ["in"] ∧
    ¬∃ report, (rejecting.evaluate wide none).outcome = .ok report := by
  have failed : (rejecting.evaluate wide none).outcome = .error .integerTooLong := by
    decide +kernel
  refine ⟨by decide, ?_⟩
  rw [failed]
  intro finished
  obtain ⟨report, impossible⟩ := finished
  cases impossible

end PartSorting.Table
