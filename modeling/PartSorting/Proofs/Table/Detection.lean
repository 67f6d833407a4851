import PartSorting.Proofs.Table.Mask
import PartSorting.Proofs.Table.Schedule

/-! # Detecting cycles changes no computation that meets none

Where a name was met before, a walk that detects cycles stops and one that does not goes on; they
differ nowhere else.  So as long as a computation with detection is not stopped by a cycle, the same
computation without it goes along in lock step and ends in the same way, with the same report, the
same mask or the same other fault.  It ends by itself: nothing changes when it may go deeper, and
the list of pending boxes becomes empty without any bound. -/

set_option autoImplicit false

namespace PartSorting

/-- The faults of a computation that goes round: a cycle was detected, or there is no end. -/
inductive Fault.GoesRound : Fault → Prop where
  | detected (path : List String) : GoesRound (.cyclicWorkflow path)
  | endless (path : List String) : GoesRound (.endless path)

def StoppedByCycle {α : Type} (outcome : Except Fault α) : Prop :=
  ∃ path, outcome = .error (.cyclicWorkflow path)

theorem not_stoppedByCycle_ok {α : Type} (value : α) : ¬StoppedByCycle (.ok value) := by
  intro stopped
  obtain ⟨_, impossible⟩ := stopped
  contradiction

/-- The computation has come to an end, and not by a cycle. -/
def EndsStraight {α : Type} (outcome : Except Fault α) : Prop :=
  ∀ fault, outcome = .error fault → ¬fault.GoesRound

theorem StoppedByCycle.of_fault {α β : Type} {fault : Fault}
    (stopped : StoppedByCycle (.error fault : Except Fault α)) :
    StoppedByCycle (.error fault : Except Fault β) := by
  obtain ⟨path, same⟩ := stopped
  exact ⟨path, congrArg Except.error (Except.error.inj same)⟩

theorem EndsStraight.spared {α : Type} {outcome : Except Fault α}
    (straight : EndsStraight outcome) : ¬StoppedByCycle outcome := by
  rintro ⟨path, stopped⟩
  exact straight _ stopped (.detected path)

def Config.detecting (config : Config) : Config :=
  { config with detectCycles := true }

def Config.trusting (config : Config) : Config :=
  { config with detectCycles := false }

namespace Table

variable {table : Table} {config : Config} {path : List String} {name : String}

/-- Only a cycle is seen differently without detection. -/
theorem arrive_trusting {outcome : Except Fault (Option Workflow)}
    (arrived : table.arrive true path name = outcome) (spared : ¬StoppedByCycle outcome) :
    table.arrive false path name = outcome := by
  subst arrived
  simp only [arrive, true_and, Bool.false_eq_true, false_and, if_false] at spared ⊢
  by_cases atSink : table.isSink name = true
  · rw [if_pos atSink, if_pos atSink]
  · rw [if_neg atSink] at spared
    rw [if_neg atSink, if_neg atSink]
    by_cases again : name ∈ path
    · rw [if_pos again] at spared
      exact absurd ⟨_, rfl⟩ spared
    · rw [if_neg again]

theorem walkFrom_trusting {part : Part} {depth : Nat}
    (straight : EndsStraight (table.walkFrom true part depth path name)) (more : Nat) :
    table.walkFrom false part (depth + more) path name =
      table.walkFrom true part depth path name := by
  induction depth generalizing path name with
  | zero => exact absurd (.endless _) (straight _ rfl)
  | succ depth ih =>
      rw [Nat.succ_add]
      cases arrived : table.arrive true path name with
      | error fault =>
          rw [walkFrom_of_arrive_error arrived] at straight ⊢
          exact walkFrom_of_arrive_error (arrive_trusting arrived (mt .of_fault straight.spared))
      | ok next =>
          have arrivedToo := arrive_trusting arrived (not_stoppedByCycle_ok _)
          cases next with
          | none =>
              rw [walkFrom_of_arrive_none arrived]
              exact walkFrom_of_arrive_none arrivedToo
          | some workflow =>
              rw [walkFrom_of_arrive_some arrived] at straight ⊢
              rw [walkFrom_of_arrive_some arrivedToo]
              exact ih straight

theorem sweepFrom_trusting {Load : Type} {divide : Divider Load} {depth : Nat} {load : Load}
    (straight : EndsStraight (table.sweepFrom true divide depth path (name, load)).outcome)
    (more : Nat) :
    table.sweepFrom false divide (depth + more) path (name, load) =
      table.sweepFrom true divide depth path (name, load) := by
  induction depth generalizing path name load with
  | zero => exact absurd (.endless _) (straight _ rfl)
  | succ depth ih =>
      rw [Nat.succ_add]
      simp only [sweepFrom] at straight ⊢
      cases arrived : table.arrive true path name with
      | error fault =>
          rw [arrived] at straight
          rw [arrive_trusting arrived (mt .of_fault straight.spared)]
      | ok next =>
          rw [arrive_trusting arrived (not_stoppedByCycle_ok _)]
          cases next with
          | none => rfl
          | some workflow =>
              simp only [arrived, Traced.outcome_bind] at straight
              apply Traced.bind_congr_of_ok
              intro pieces divided
              rw [divided] at straight
              -- Pieces behind one that fails are not swept, and may well go round.
              rw [Traced.mapM_congr_of_allowed (fun piece _ pieceStraight => ih pieceStraight)]
              intro fault failed
              apply straight
              show Traced.outcome _ >>= _ = _
              rw [failed]
              rfl

theorem handle_trusting {report : RangeReport} {item : Transit Box}
    {outcome : Except Fault Worklist}
    (handled : table.handle config.detecting report item = outcome)
    (spared : ¬StoppedByCycle outcome) :
    table.handle config.trusting report item = outcome := by
  subst handled
  simp only [handle, Config.detecting, Config.trusting] at spared ⊢
  cases arrived : table.arrive true item.path item.name with
  | error fault =>
      rw [arrived] at spared
      rw [arrive_trusting arrived (mt .of_fault spared)]
  | ok next => rw [arrive_trusting arrived (not_stoppedByCycle_ok _)]

theorem Turns.trusting {takes : Takes} {n : Nat} {first list : Worklist}
    (turns : Turns table config.detecting takes n first list) :
    Turns table config.trusting takes n first list := by
  induction turns with
  | none => exact .none _
  | more _ turn ih =>
      cases turn with
      | next taken ok => exact .more ih (.next taken (handle_trusting ok (not_stoppedByCycle_ok _)))

/-- A complete run with detection that is not stopped by a cycle is a complete run without it. -/
theorem run_trusting {takes : Takes} {first : Worklist} {outcome : Except Fault RangeReport}
    (ran : Run table config.detecting takes first outcome) (spared : ¬StoppedByCycle outcome) :
    Run table config.trusting takes first outcome := by
  cases ran with
  | ok turns => exact .ok turns.trusting
  | error turns turn =>
      cases turn with
      | fault taken failed =>
          have failedToo := handle_trusting failed (mt .of_fault spared)
          exact .error turns.trusting (.fault taken failedToo)

/-! ## With detection nothing is endless -/

theorem endsStraight_of_inGraph {α : Type} {outcome : Except Fault α}
    (inGraph : ∀ fault, outcome = .error fault → fault.InGraph ∨ fault = .integerTooLong)
    (spared : ¬StoppedByCycle outcome) : EndsStraight outcome := by
  intro fault failed round
  cases round with
  | detected path => exact spared ⟨path, failed⟩
  | endless path =>
      rcases inGraph _ failed with impossible | impossible
      · cases impossible
      · contradiction

theorem evaluate_error_of_detecting {box : Option Box} {fault : Fault}
    (failed : (table.evaluate config.detecting box).outcome = .error fault) :
    fault.InGraph ∨ fault = .integerTooLong := by
  have ran := @run_last_evaluate table config.detecting rfl box
  rw [failed] at ran
  cases ran with
  | error _ turn =>
      cases turn with
      | fault _ failed =>
          rcases handle_error_cases failed with lost | ⟨workflow, _, undivided⟩
          · exact .inl (inGraph_of_arrive lost)
          · rw [outcome_pushPieces] at undivided
            split at undivided
            · contradiction
            · exact .inr (Except.error.inj undivided).symm

theorem evaluate_trusting {box : Option Box}
    (straight : EndsStraight (table.evaluate config.detecting box).outcome) :
    table.evaluate config.trusting box = table.evaluate config.detecting box := by
  by_cases positive : 0 < Box.volume (startBox config.detecting box)
  · have positiveToo : 0 < Box.volume (startBox config.trusting box) := positive
    have sweptStraight : EndsStraight (table.sweep config.detecting
        (pushPieces config.detecting.scale) (startBox config.detecting box)).outcome := by
      intro fault failed
      apply straight
      simp only [evaluate, positive, if_true, Traced.outcome_bind, failed]
      rfl
    have same : table.sweep config.trusting (pushPieces config.trusting.scale)
        (startBox config.trusting box) = table.sweep config.detecting
          (pushPieces config.detecting.scale) (startBox config.detecting box) :=
      sweepFrom_trusting sweptStraight 0
    simp only [evaluate, positive, positiveToo, if_true, same]
    rfl
  · have empty : ¬0 < Box.volume (startBox config.trusting box) := positive
    simp only [evaluate, positive, empty, if_false]
    rfl

/-- A walk whose judgement is not stopped by a cycle is the same without detection, however deep it
may go. -/
theorem walk_trusting {part : Part}
    (spared : ¬StoppedByCycle (table.classify config.detecting part)) :
    table.walk config.trusting part = table.walk config.detecting part ∧
      ∀ more, table.walkFrom false part (table.depth + more) [] config.entry =
        table.walk config.detecting part := by
  have walkSpared : ¬StoppedByCycle (table.walk config.detecting part) := by
    intro stopped
    obtain ⟨path, failed⟩ := stopped
    exact spared ⟨path, classify_of_walk_error failed⟩
  have straight := endsStraight_of_inGraph (fun _ failed => .inl (walk_error rfl failed)) walkSpared
  have same : ∀ more, table.walkFrom false part (table.depth + more) [] config.entry =
      table.walk config.detecting part := walkFrom_trusting straight
  exact ⟨same 0, same⟩

theorem acceptMask_error_of_detecting {parts : List Part} {fault : Fault}
    (failed : table.acceptMask config.detecting parts = .error fault) : fault.InGraph := by
  obtain ⟨part, _, walked⟩ := part_of_acceptMask_error failed
  exact walk_error rfl walked

theorem sweep_group_trusting {parts : List Part} (notEmpty : parts ≠ [])
    (straight : EndsStraight (table.acceptMask config.detecting parts)) (more : Nat) :
    table.sweepFrom false Workflow.group (table.depth + more) [] (config.entry, parts.zipIdx) =
      table.sweep config.detecting Workflow.group parts.zipIdx := by
  apply sweepFrom_trusting
  intro fault failed
  apply straight
  have swept : (table.sweep config.detecting Workflow.group parts.zipIdx).outcome =
      .error fault := failed
  rw [acceptMask_of_ne_nil notEmpty, swept]
  rfl

theorem acceptMask_trusting {parts : List Part}
    (straight : EndsStraight (table.acceptMask config.detecting parts)) :
    table.acceptMask config.trusting parts = table.acceptMask config.detecting parts := by
  by_cases empty : parts = []
  · subst empty
    rfl
  · have same := sweep_group_trusting empty straight 0
    rw [acceptMask_of_ne_nil empty, acceptMask_of_ne_nil empty, ← same]
    rfl

/-- A computation that detects cycles and is not stopped by one is, with all its results, reports
and faults, what it is without detection.  There it ends by itself: walks and sweeps of rows end in
the same way however deep they may go, and pending boxes, taken as in the evaluation, are settled in
a complete run. -/
theorem same_without_detection (table : Table) (config : Config) :
    (∀ part, ¬StoppedByCycle (table.classify config.detecting part) →
      table.classify config.trusting part = table.classify config.detecting part ∧
      EndsStraight (table.classify config.trusting part) ∧
      ∀ more, table.walkFrom false part (table.depth + more) [] config.entry =
        table.walk config.trusting part) ∧
    (∀ box, ¬StoppedByCycle (table.evaluate config.detecting box).outcome →
      table.evaluate config.trusting box = table.evaluate config.detecting box ∧
      EndsStraight (table.evaluate config.trusting box).outcome ∧
      Run table config.trusting .last (startList config.trusting box)
        (table.evaluate config.trusting box).outcome) ∧
    (∀ parts, ¬StoppedByCycle (table.acceptMask config.detecting parts) →
      table.acceptMask config.trusting parts = table.acceptMask config.detecting parts ∧
      EndsStraight (table.acceptMask config.trusting parts) ∧
      (parts ≠ [] → ∀ more,
        table.sweepFrom false Workflow.group (table.depth + more) []
            (config.entry, parts.zipIdx) =
          table.sweep config.trusting Workflow.group parts.zipIdx)) := by
  refine ⟨?_, ?_, ?_⟩
  · intro part spared
    have straight := endsStraight_of_inGraph
      (fun fault failed => (classify_error rfl failed).imp_right And.left) spared
    have same := walk_trusting spared
    have sameHere : table.classify config.trusting part = table.classify config.detecting part := by
      rw [classify_eq, classify_eq, same.1]
    rw [sameHere, same.1]
    exact ⟨rfl, straight, same.2⟩
  · intro box spared
    have straight := endsStraight_of_inGraph (fun _ => evaluate_error_of_detecting) spared
    rw [evaluate_trusting straight]
    exact ⟨rfl, straight, run_trusting (run_last_evaluate rfl box) spared⟩
  · intro parts spared
    have straight := endsStraight_of_inGraph
      (fun fault failed => .inl (acceptMask_error_of_detecting failed)) spared
    rw [acceptMask_trusting straight]
    refine ⟨rfl, straight, fun notEmpty more => ?_⟩
    rw [sweep_group_trusting notEmpty straight more]
    exact (sweep_group_trusting notEmpty straight 0).symm

def returning : Table where
  entries := [("in", ⟨"in", [⟨⟨.x, .lessThan, 2⟩, "in"⟩], "gone"⟩)]
  accept := "A"
  reject := "R"
  names_nodup := by decide
  accept_not_name := by decide
  reject_not_name := by decide

/-- The unknown name is met first, while boxes and rows that would go round are still pending. -/
theorem same_without_detection_returning :
    let config : Config := { Config.usual with scale := ⟨1, 3⟩ }
    let rows : List Part := [⟨1, 1, 1, 1⟩, ⟨2, 1, 1, 1⟩]
    StoppedByCycle (returning.classify config.detecting ⟨1, 1, 1, 1⟩) ∧
    returning.classify config.trusting ⟨2, 1, 1, 1⟩ = .error (.unknownWorkflow "gone") ∧
    (returning.evaluate config.trusting none).outcome = .error (.unknownWorkflow "gone") ∧
    Run returning config.trusting .last (startList config.trusting none)
      (.error (.unknownWorkflow "gone")) ∧
    returning.acceptMask config.trusting rows = .error (.unknownWorkflow "gone") := by
  intro config rows
  have cyclic : StoppedByCycle (returning.classify config.detecting ⟨1, 1, 1, 1⟩) :=
    ⟨["in", "in"], classify_of_walk_error (by decide)⟩
  have classified : returning.classify config.detecting ⟨2, 1, 1, 1⟩ =
      .error (.unknownWorkflow "gone") :=
    classify_of_walk_error (by decide)
  have evaluated : (returning.evaluate config.detecting none).outcome =
      .error (.unknownWorkflow "gone") := by
    decide +kernel
  have masked : returning.acceptMask config.detecting rows =
      .error (.unknownWorkflow "gone") := by
    decide
  obtain ⟨walks, evaluations, masks⟩ := same_without_detection returning config
  obtain ⟨sameWalk, _, _⟩ := walks ⟨2, 1, 1, 1⟩ (by simp [classified, StoppedByCycle])
  obtain ⟨sameEvaluation, _, ran⟩ := evaluations none (by simp [evaluated, StoppedByCycle])
  obtain ⟨sameMask, _, _⟩ := masks rows (by simp [masked, StoppedByCycle])
  have evaluatedToo := (congrArg Traced.outcome sameEvaluation).trans evaluated
  rw [evaluatedToo] at ran
  exact ⟨cyclic, sameWalk.trans classified, evaluatedToo, ran, sameMask.trans masked⟩

end Table

end PartSorting
