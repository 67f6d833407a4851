import Mathlib.Algebra.BigOperators.Group.List.Basic
import Mathlib.Algebra.Ring.Int.Defs
import PartSorting.Block
import PartSorting.Proofs.Table.Mask
import PartSorting.Proofs.Trace.Sequence

/-! # The ratings of the accepted parts

Judging parts one by one, adding up the ratings of those that are accepted, and masking the rows
of a block all come from the same walks.  The sum fails as the judgement of the first part that
cannot be judged; otherwise it is the total rating of the parts with an accepting verdict, which
are the parts in the rows that are marked. -/

set_option autoImplicit false

namespace PartSorting

def Part.totalRating (parts : List Part) : Int :=
  (parts.map Part.rating).sum

def Verdict.acceptedParts (verdicts : List Verdict) : List Part :=
  (verdicts.filter Verdict.accepted).map Verdict.part

def Part.marked (mask : List Bool) (parts : List Part) : List Part :=
  ((parts.zip mask).filter Prod.snd).map Prod.fst

theorem Part.marked_map (chosen : Part → Bool) (parts : List Part) :
    marked (parts.map chosen) parts = parts.filter chosen := by
  induction parts with
  | nil => rfl
  | cons part parts ih =>
      unfold marked at ih ⊢
      rw [List.map_cons, List.zip_cons_cons]
      cases taken : chosen part with
      | true =>
          rw [List.filter_cons_of_pos (by rfl), List.filter_cons_of_pos taken, List.map_cons, ih]
      | false =>
          rw [List.filter_cons_of_neg (by simp), List.filter_cons_of_neg (by simp [taken]), ih]

theorem Verdict.totalRating_cons (verdict : Verdict) (verdicts : List Verdict) :
    Part.totalRating (acceptedParts (verdict :: verdicts)) =
      (if verdict.accepted then verdict.part.rating else 0) +
        Part.totalRating (acceptedParts verdicts) := by
  unfold Part.totalRating acceptedParts
  cases accepted : verdict.accepted with
  | true =>
      rw [List.filter_cons_of_pos accepted, List.map_cons, List.map_cons, List.sum_cons,
        if_pos rfl]
  | false =>
      rw [List.filter_cons_of_neg (by simp [accepted]), if_neg (by simp), Int.zero_add]

theorem Verdict.totalRating_append (verdicts others : List Verdict) :
    Part.totalRating (acceptedParts (verdicts ++ others)) =
      Part.totalRating (acceptedParts verdicts) + Part.totalRating (acceptedParts others) := by
  unfold Part.totalRating acceptedParts
  rw [List.filter_append, List.map_append, List.map_append, List.sum_append]

theorem Block.check_ofParts {parts : List Part}
    (fits : ∀ part ∈ parts, ∀ n ∈ part.toList, FitsWord n) : (ofParts parts).check = .ok () := by
  unfold check ofParts
  apply if_pos
  intro n member
  obtain ⟨part, listed, isRating⟩ := List.mem_flatMap.mp member
  exact fits part listed n isRating

namespace Table

variable {table : Table} {config : Config}

theorem outcome_judgeAll (table : Table) (config : Config) (parts : List Part) :
    (table.judgeAll config parts).outcome = parts.mapM (table.classify config) := by
  simp only [judgeAll, Traced.outcome_mapM, outcome_judge]

/-- Adding up on the way is judging all parts first and adding up afterwards. -/
theorem outcome_foldlM_ratings (parts : List Part) (total : Int) :
    (parts.foldlM (fun total part => do
        let verdict ← table.judge config part
        return if verdict.accepted then total + part.rating else total) total).outcome =
      (parts.mapM (table.classify config)).map fun verdicts =>
        total + Part.totalRating (Verdict.acceptedParts verdicts) := by
  induction parts generalizing total with
  | nil => exact congrArg Except.ok (Int.add_zero total).symm
  | cons part parts ih =>
      rw [List.foldlM_cons, Traced.outcome_bind, Traced.outcome_bind, outcome_judge,
        List.mapM_cons]
      cases classified : table.classify config part with
      | error fault => rfl
      | ok verdict =>
          have samePart : verdict.part = part := part_of_classify classified
          refine (ih (if verdict.accepted then total + part.rating else total)).trans ?_
          cases parts.mapM (table.classify config) with
          | error fault => rfl
          | ok verdicts =>
              apply congrArg Except.ok
              show _ = total + Part.totalRating (Verdict.acceptedParts (verdict :: verdicts))
              rw [Verdict.totalRating_cons, samePart]
              dsimp only
              split
              · exact Int.add_assoc ..
              · omega

theorem outcome_sumAccepted (table : Table) (config : Config) (parts : List Part) :
    (table.sumAccepted config parts).outcome =
      (parts.mapM (table.classify config)).map fun verdicts =>
        Part.totalRating (Verdict.acceptedParts verdicts) := by
  rw [sumAccepted, outcome_foldlM_ratings]
  simp only [Int.zero_add]

def accepts (table : Table) (config : Config) (part : Part) : Bool :=
  decide (Accepting (table.classify config part))

theorem accepts_eq {part : Part} {verdict : Verdict}
    (classified : table.classify config part = .ok verdict) :
    table.accepts config part = verdict.accepted := by
  simp only [accepts, accepting_iff classified, Bool.decide_eq_true]

/-- The verdicts on parts are about these parts, and they accept those that are accepted. -/
theorem acceptedParts_of_mapM {parts : List Part} {verdicts : List Verdict}
    (judged : parts.mapM (table.classify config) = .ok verdicts) :
    verdicts.map Verdict.part = parts ∧
      Verdict.acceptedParts verdicts =
        parts.filter (table.accepts config) := by
  induction Outcome.mapM_eq_ok_iff.mp judged with
  | nil => exact ⟨rfl, rfl⟩
  | @cons part verdict parts verdicts classified rest ih =>
      obtain ⟨sameParts, sameAccepted⟩ := ih (Outcome.mapM_eq_ok_iff.mpr rest)
      have samePart : verdict.part = part := part_of_classify classified
      have same := accepts_eq classified
      unfold Verdict.acceptedParts at sameAccepted ⊢
      rw [List.map_cons, sameParts, samePart]
      refine ⟨rfl, ?_⟩
      by_cases accepted : verdict.accepted = true
      · rw [List.filter_cons_of_pos accepted, List.map_cons, sameAccepted, samePart,
          List.filter_cons_of_pos (same.trans accepted)]
      · rw [List.filter_cons_of_neg accepted, sameAccepted,
          List.filter_cons_of_neg (by rwa [same])]

theorem sumAccepted_eq_ok_iff {parts : List Part} {total : Int} :
    (table.sumAccepted config parts).outcome = .ok total ↔
      (∀ part ∈ parts, ∃ verdict, table.classify config part = .ok verdict) ∧
        total = Part.totalRating (parts.filter (table.accepts config)) := by
  rw [outcome_sumAccepted, ← Outcome.exists_mapM_ok_iff]
  cases judged : parts.mapM (table.classify config) with
  | error fault => simp [Except.map]
  | ok verdicts =>
      rw [← (acceptedParts_of_mapM judged).2]
      simp [Except.map, eq_comm]

theorem sumAccepted_eq_error_iff {parts : List Part} {fault : Fault} :
    (table.sumAccepted config parts).outcome = .error fault ↔
      (table.judgeAll config parts).outcome = .error fault := by
  rw [outcome_sumAccepted, outcome_judgeAll]
  cases parts.mapM (table.classify config) with
  | error cause => simp [Except.map]
  | ok verdicts => simp [Except.map]

theorem sumAccepted_perm {parts others : List Part} (exchanged : others.Perm parts) {total : Int}
    (summed : (table.sumAccepted config parts).outcome = .ok total) :
    (table.sumAccepted config others).outcome = .ok total := by
  obtain ⟨judged, rfl⟩ := sumAccepted_eq_ok_iff.mp summed
  rw [sumAccepted_eq_ok_iff]
  constructor
  · intro part member
    exact judged part (exchanged.mem_iff.mp member)
  · exact (((exchanged.filter _).map Part.rating).sum_eq).symm

theorem sumAccepted_append (table : Table) (config : Config) (parts others : List Part) :
    (table.sumAccepted config (parts ++ others)).outcome = do
      let first ← (table.sumAccepted config parts).outcome
      let second ← (table.sumAccepted config others).outcome
      return first + second := by
  simp only [outcome_sumAccepted, List.mapM_append]
  cases parts.mapM (table.classify config) with
  | error fault => rfl
  | ok verdicts =>
      cases others.mapM (table.classify config) with
      | error fault => rfl
      | ok more => exact congrArg Except.ok (Verdict.totalRating_append verdicts more)

theorem marked_of_acceptMask {parts : List Part} {mask : List Bool}
    (fits : ∀ part ∈ parts, ∀ n ∈ part.toList, FitsWord n)
    (masked : table.acceptMask config parts = .ok mask) :
    Part.marked mask parts = parts.filter (table.accepts config) := by
  have judged : mask = parts.map (table.accepts config) := by
    rw [mask_eq_map masked]
    apply List.map_congr_left
    intro part member
    have spellable := Part.spellable_of_fitsWord (fits part member)
    simp only [accepts, classify_of_spellable spellable]
  rw [judged]
  exact Part.marked_map (table.accepts config) parts

/-- The sum over the parts, the list of their verdicts and the mask of their rows agree. -/
theorem ratings_agree (table : Table) (config : Config) (parts : List Part) :
    ((∃ total, (table.sumAccepted config parts).outcome = .ok total) ↔
      ∃ verdicts, (table.judgeAll config parts).outcome = .ok verdicts) ∧
    (∀ verdicts, (table.judgeAll config parts).outcome = .ok verdicts →
      verdicts.map Verdict.part = parts ∧
        (table.sumAccepted config parts).outcome =
          .ok (Part.totalRating (Verdict.acceptedParts verdicts))) ∧
    (∀ others total, others.Perm parts →
      ((table.sumAccepted config others).outcome = .ok total ↔
        (table.sumAccepted config parts).outcome = .ok total)) ∧
    (∀ others, (table.sumAccepted config (parts ++ others)).outcome = do
      let first ← (table.sumAccepted config parts).outcome
      let second ← (table.sumAccepted config others).outcome
      return first + second) ∧
    (∀ fault, (table.sumAccepted config parts).outcome = .error fault ↔
      (table.judgeAll config parts).outcome = .error fault) ∧
    (∀ fault, (table.sumAccepted config parts).outcome = .error fault ↔
      ∃ before part after, parts = before ++ part :: after ∧
        (∀ earlier ∈ before, ∃ verdict, table.classify config earlier = .ok verdict) ∧
        table.classify config part = .error fault) ∧
    (config.detectCycles = true →
      ∀ fault, (table.sumAccepted config parts).outcome = .error fault →
        fault.InGraph ∨ (fault = .integerTooLong ∧ ∃ part ∈ parts, ¬part.Spellable)) ∧
    ((∀ part ∈ parts, ∀ n ∈ part.toList, FitsWord n) →
      ∀ total, (table.sumAccepted config parts).outcome = .ok total →
        ∃ rows mask, (Block.ofParts parts).check = .ok () ∧
          (Block.ofParts parts).parts = .ok rows ∧ table.acceptMask config rows = .ok mask ∧
          total = Part.totalRating (Part.marked mask rows)) := by
  have firstFailure : ∀ fault, (table.sumAccepted config parts).outcome = .error fault ↔
      ∃ before part after, parts = before ++ part :: after ∧
        (∀ earlier ∈ before, ∃ verdict, table.classify config earlier = .ok verdict) ∧
        table.classify config part = .error fault := by
    intro fault
    rw [sumAccepted_eq_error_iff, outcome_judgeAll, Outcome.mapM_eq_error_iff]
  refine ⟨?_, ?_, ?_, sumAccepted_append table config parts, fun _ => sumAccepted_eq_error_iff,
    firstFailure, ?_, ?_⟩
  · rw [outcome_judgeAll, Outcome.exists_mapM_ok_iff]
    simp only [sumAccepted_eq_ok_iff, exists_and_left, exists_eq, and_true]
  · intro verdicts judged
    rw [outcome_judgeAll] at judged
    refine ⟨(acceptedParts_of_mapM judged).1, ?_⟩
    rw [outcome_sumAccepted, judged]
    rfl
  · intro others total exchanged
    exact ⟨sumAccepted_perm exchanged.symm, sumAccepted_perm exchanged⟩
  · intro detect fault failed
    obtain ⟨before, part, after, rfl, _, classified⟩ := (firstFailure fault).mp failed
    have member : part ∈ before ++ part :: after :=
      List.mem_append_right before List.mem_cons_self
    apply (classify_error detect classified).imp_right
    intro lost
    exact ⟨lost.1, part, member, lost.2⟩
  · intro fits total summed
    obtain ⟨judged, rfl⟩ := sumAccepted_eq_ok_iff.mp summed
    have walks : ∀ part ∈ parts, ∃ verdict, table.walk config part = .ok verdict := by
      intro part member
      obtain ⟨verdict, classified⟩ := judged part member
      exact ⟨verdict, (classify_eq_ok_iff.mp classified).1⟩
    obtain ⟨mask, masked⟩ := exists_acceptMask_iff.mpr walks
    refine ⟨parts, mask, Block.check_ofParts fits, Block.parts_ofParts parts, masked, ?_⟩
    rw [marked_of_acceptMask fits masked]

def mixedParts : List Part := [⟨2, 3, 1, 1⟩, ⟨5, 1, 1, 1⟩, ⟨1, 4, 0, -2⟩]

theorem ratings_agree_mixed :
    (twoStage.judgeAll Config.usual mixedParts).outcome =
      .ok [⟨⟨2, 3, 1, 1⟩, true, ["in", "mid"], "A"⟩, ⟨⟨5, 1, 1, 1⟩, false, ["in"], "R"⟩,
        ⟨⟨1, 4, 0, -2⟩, true, ["in", "mid"], "A"⟩] ∧
    (twoStage.sumAccepted Config.usual mixedParts).outcome = .ok 10 ∧
    (twoStage.sumAccepted Config.usual mixedParts.reverse).outcome = .ok 10 ∧
    (∃ rows mask, twoStage.acceptMask Config.usual rows = .ok mask ∧
      10 = Part.totalRating (Part.marked mask rows)) ∧
    (dangling.sumAccepted Config.usual (mixedParts.reverse)).outcome =
      .error (.unknownWorkflow "gone") ∧
    (Fault.unknownWorkflow "gone").InGraph := by
  have judged : (twoStage.judgeAll Config.usual mixedParts).outcome =
      .ok [⟨⟨2, 3, 1, 1⟩, true, ["in", "mid"], "A"⟩, ⟨⟨5, 1, 1, 1⟩, false, ["in"], "R"⟩,
        ⟨⟨1, 4, 0, -2⟩, true, ["in", "mid"], "A"⟩] := by
    decide +kernel
  have failed : (dangling.judgeAll Config.usual mixedParts.reverse).outcome =
      .error (.unknownWorkflow "gone") := by
    decide +kernel
  have fits : ∀ part ∈ mixedParts, ∀ n ∈ part.toList, FitsWord n := by decide
  obtain ⟨_, sums, exchange, _, _, _, _, masks⟩ := ratings_agree twoStage Config.usual mixedParts
  obtain ⟨_, _, _, _, fails, _, inGraph, _⟩ :=
    ratings_agree dangling Config.usual mixedParts.reverse
  have summed := (sums _ judged).2
  have exchanged := (exchange mixedParts.reverse 10 (List.reverse_perm _)).mpr summed
  obtain ⟨rows, mask, _, _, masked, total⟩ := masks fits 10 summed
  have sameFault := (fails _).mpr failed
  refine ⟨judged, summed, exchanged, ⟨rows, mask, masked, total⟩, sameFault, ?_⟩
  rcases inGraph rfl _ sameFault with graph | ⟨impossible, _⟩
  · exact graph
  · cases impossible

end Table

end PartSorting
