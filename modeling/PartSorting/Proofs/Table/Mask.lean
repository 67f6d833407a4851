import PartSorting.Block
import PartSorting.Proofs.Table.Ranges
import PartSorting.Proofs.Workflow.Grouping

/-! # A mask says of every row what the judgement of its part says

Rows are grouped along the routes of their parts, so a finished sweep has every row in one group,
at the sink where the walk of its part ends.  The mask is set at the rows of the accepting sink,
each row at its own number. -/

set_option autoImplicit false

namespace PartSorting.Table

theorem size_setAll (positions : List Nat) (mask : Array Bool) :
    (positions.foldl (fun mask position => mask.setIfInBounds position true) mask).size =
      mask.size := by
  induction positions generalizing mask with
  | nil => rfl
  | cons position positions ih => rw [List.foldl_cons, ih, Array.size_setIfInBounds]

theorem getElem?_setAll (positions : List Nat) (mask : Array Bool) (i : Nat) :
    (positions.foldl (fun mask position => mask.setIfInBounds position true) mask)[i]? =
      mask[i]?.map fun flag => flag || decide (i ∈ positions) := by
  induction positions generalizing mask with
  | nil => simp
  | cons position positions ih =>
      rw [List.foldl_cons, ih, Array.getElem?_setIfInBounds]
      by_cases here : position = i
      · subst here
        by_cases inside : position < mask.size
        · simp [inside]
        · simp [inside]
      · simp [here, Ne.symm here]

theorem length_maskOf (length : Nat) (positions : List Nat) :
    (maskOf length positions).length = length := by
  rw [maskOf, Array.length_toList, size_setAll, Array.size_replicate]

theorem getElem?_maskOf {length i : Nat} (inside : i < length) (positions : List Nat) :
    (maskOf length positions)[i]? = some (decide (i ∈ positions)) := by
  rw [maskOf, Array.getElem?_toList, getElem?_setAll, Array.getElem?_replicate, if_pos inside]
  rfl

theorem faithful_group :
    Faithful Workflow.group (fun rows => rows ≠ []) (fun row rows => rows.count row)
      Prod.fst where
  inhabited := by
    intro rows notEmpty
    obtain ⟨row, rest, rfl⟩ := List.exists_cons_of_ne_nil notEmpty
    exact ⟨row, List.count_pos_iff.mpr List.mem_cons_self⟩
  kept := by
    intro name workflow rows groups _ grouped group member
    obtain rfl := Except.ok.inj grouped
    exact Workflow.ne_nil_of_mem_groupBy _ _ rows group member
  routed := by
    intro name workflow rows groups _ grouped row
    obtain rfl := Except.ok.inj grouped
    exact Workflow.sightings_groupBy _ _ rows row

variable {table : Table} {config : Config} {parts : List Part}

def acceptedRows (table : Table) (arrivals : Arrivals (List Row)) : List Nat :=
  (arrivals.deliveries.filter fun delivery => delivery.1 == table.accept).flatMap
    fun delivery => delivery.2.map Prod.snd

theorem acceptMask_of_ne_nil (notEmpty : parts ≠ []) :
    table.acceptMask config parts =
      (table.sweep config Workflow.group parts.zipIdx).outcome.map fun arrivals =>
        maskOf parts.length (table.acceptedRows arrivals) := by
  have nonempty : parts.isEmpty = false := by simpa using notEmpty
  simp only [acceptMask, nonempty, Bool.false_eq_true, if_false]
  cases (table.sweep config Workflow.group parts.zipIdx).outcome with
  | error fault => rfl
  | ok arrivals => rfl

theorem rows_ne_nil (notEmpty : parts ≠ []) : parts.zipIdx ≠ [] := by
  intro empty
  exact notEmpty (List.zipIdx_eq_nil_iff.mp empty)

theorem sighted_rows (notEmpty : parts ≠ []) {arrivals : Arrivals (List Row)}
    (swept : (table.sweep config Workflow.group parts.zipIdx).outcome = .ok arrivals)
    (row : Row) :
    SightedAtEnd (table.walk config row.1) (parts.zipIdx.count row)
      (sightings (List.count row) arrivals.deliveries) :=
  sighted_sweepFrom faithful_group _ _ _ _ arrivals (rows_ne_nil notEmpty) swept row

theorem count_zipIdx_pos_iff {part : Part} {i : Nat} :
    0 < parts.zipIdx.count (part, i) ↔ parts[i]? = some part := by
  rw [List.count_pos_iff]
  exact List.mk_mem_zipIdx_iff_getElem?

theorem mem_acceptedRows_iff {arrivals : Arrivals (List Row)}
    (sighted : ∀ row : Row, SightedAtEnd (table.walk config row.1) (parts.zipIdx.count row)
      (sightings (List.count row) arrivals.deliveries))
    {i : Nat} {part : Part} (listed : parts[i]? = some part) {verdict : Verdict}
    (ended : table.walk config part = .ok verdict) :
    i ∈ table.acceptedRows arrivals ↔ verdict.terminal = table.accept := by
  constructor
  · intro accepted
    obtain ⟨⟨sink, rows⟩, delivered, inRows⟩ := List.mem_flatMap.mp accepted
    obtain ⟨⟨other, number⟩, member, sameNumber⟩ := List.mem_map.mp inRows
    obtain ⟨arrived, atAccept⟩ := List.mem_filter.mp delivered
    have present := List.count_pos_iff.mpr member
    obtain ⟨same, ending, walked, atTerminal⟩ := (sighted (other, number)).of_mem arrived present
    rw [same, count_zipIdx_pos_iff] at present
    -- A row number belongs to one part only, so it is the walk of this part that ended here.
    have sameNumber : number = i := sameNumber
    rw [sameNumber, listed] at present
    obtain rfl := Option.some.inj present
    obtain rfl := Except.ok.inj (walked.symm.trans ended)
    exact atTerminal.symm.trans (beq_iff_eq.mp atAccept)
  · intro atAccept
    obtain ⟨ending, rows, walked, arrived, present⟩ :=
      (sighted (part, i)).exists_mem (count_zipIdx_pos_iff.mpr listed)
    obtain rfl := Except.ok.inj (walked.symm.trans ended)
    apply List.mem_flatMap.mpr
    refine ⟨_, List.mem_filter.mpr ⟨arrived, beq_iff_eq.mpr atAccept⟩, ?_⟩
    exact List.mem_map.mpr ⟨(part, i), List.count_pos_iff.mp present, rfl⟩

theorem rowwise_of_acceptMask {mask : List Bool}
    (masked : table.acceptMask config parts = .ok mask) :
    mask.length = parts.length ∧
      ∀ (i : Nat) part, parts[i]? = some part →
        ∃ verdict, table.walk config part = .ok verdict ∧
          mask[i]? = some verdict.accepted := by
  by_cases empty : parts = []
  · subst empty
    obtain rfl := Except.ok.inj masked
    exact ⟨rfl, fun i part listed => by simp at listed⟩
  · rw [acceptMask_of_ne_nil empty] at masked
    cases swept : (table.sweep config Workflow.group parts.zipIdx).outcome with
    | error fault =>
        rw [swept] at masked
        contradiction
    | ok arrivals =>
        rw [swept] at masked
        obtain rfl := Except.ok.inj masked
        have sighted := sighted_rows empty swept
        refine ⟨length_maskOf _ _, ?_⟩
        intro i part listed
        obtain ⟨verdict, _, walked, _, _⟩ :=
          (sighted (part, i)).exists_mem (count_zipIdx_pos_iff.mpr listed)
        have inside : i < parts.length := (List.getElem?_eq_some_iff.mp listed).1
        have accepted : verdict.accepted = decide (i ∈ table.acceptedRows arrivals) := by
          rw [(walkFrom_ok walked).2]
          simp only [mem_acceptedRows_iff sighted listed walked]
          rfl
        refine ⟨verdict, walked, ?_⟩
        rw [getElem?_maskOf inside, accepted]

/-- A mask is the list of what the judgement says of each part. -/
theorem mask_eq_map {mask : List Bool} (masked : table.acceptMask config parts = .ok mask) :
    mask = parts.map fun part => decide (Accepting (table.walk config part)) := by
  obtain ⟨sameLength, rowwise⟩ := rowwise_of_acceptMask masked
  apply List.ext_getElem?
  intro i
  rw [List.getElem?_map]
  cases here : parts[i]? with
  | none =>
      have outside := List.getElem?_eq_none_iff.mp here
      exact List.getElem?_eq_none_iff.mpr (by omega)
  | some part =>
      obtain ⟨verdict, walked, marked⟩ := rowwise i part here
      simp only [marked, Option.map_some, accepting_iff walked, Bool.decide_eq_true]

theorem part_of_acceptMask_error {fault : Fault}
    (failed : table.acceptMask config parts = .error fault) :
    ∃ part ∈ parts, table.walk config part = .error fault := by
  by_cases empty : parts = []
  · subst empty
    contradiction
  · rw [acceptMask_of_ne_nil empty] at failed
    cases swept : (table.sweep config Workflow.group parts.zipIdx).outcome with
    | ok arrivals =>
        rw [swept] at failed
        contradiction
    | error cause =>
        rw [swept] at failed
        obtain rfl := Except.error.inj failed
        rcases failed_walk_of_sweepFrom faithful_group _ _ _ _ cause (rows_ne_nil empty) swept with
          ⟨⟨part, number⟩, present, walked⟩ | ⟨_, _, _, _, impossible⟩
        · have listed := count_zipIdx_pos_iff.mp present
          exact ⟨part, List.mem_of_getElem? listed, walked⟩
        · contradiction

theorem exists_acceptMask_iff :
    (∃ mask, table.acceptMask config parts = .ok mask) ↔
      ∀ part ∈ parts, ∃ verdict, table.walk config part = .ok verdict := by
  constructor
  · intro masking part member
    obtain ⟨mask, masked⟩ := masking
    obtain ⟨i, listed⟩ := List.mem_iff_getElem?.mp member
    obtain ⟨verdict, walked, _⟩ := (rowwise_of_acceptMask masked).2 i part listed
    exact ⟨verdict, walked⟩
  · intro allJudged
    cases outcome : table.acceptMask config parts with
    | ok mask => exact ⟨mask, rfl⟩
    | error fault =>
        obtain ⟨part, member, failed⟩ := part_of_acceptMask_error outcome
        obtain ⟨verdict, judged⟩ := allJudged part member
        rw [failed] at judged
        contradiction

/-- On rows of words the mask has the verdict on every row, and it fails only as the judgement of a
row fails. -/
theorem acceptMask_rowwise (detect : config.detectCycles = true)
    (fits : ∀ part ∈ parts, ∀ n ∈ part.toList, FitsWord n) :
    ((∃ mask, table.acceptMask config parts = .ok mask) ↔
      ∀ part ∈ parts, ∃ verdict, table.classify config part = .ok verdict) ∧
    (∀ mask, table.acceptMask config parts = .ok mask →
      mask.length = parts.length ∧
        ∀ (i : Nat) part, parts[i]? = some part →
          ∃ verdict, table.classify config part = .ok verdict ∧
            mask[i]? = some verdict.accepted) ∧
    (∀ fault, table.acceptMask config parts = .error fault →
      fault.InGraph ∧ ∃ part ∈ parts, table.classify config part = .error fault) := by
  have judged : ∀ part ∈ parts, table.classify config part = table.walk config part :=
    fun part member => classify_of_spellable (Part.spellable_of_fitsWord (fits part member))
  refine ⟨?_, ?_, ?_⟩
  · rw [exists_acceptMask_iff]
    refine forall₂_congr fun part member => ?_
    rw [judged part member]
  · intro mask masked
    obtain ⟨sameLength, rowwise⟩ := rowwise_of_acceptMask masked
    refine ⟨sameLength, fun i part listed => ?_⟩
    rw [judged part (List.mem_of_getElem? listed)]
    exact rowwise i part listed
  · intro fault failed
    obtain ⟨part, member, walked⟩ := part_of_acceptMask_error failed
    exact ⟨walk_error detect walked, part, member, (judged part member).trans walked⟩

theorem acceptMask_rowwise_dangling :
    dangling.acceptMask Config.usual [⟨3, 1, 1, 1⟩, ⟨4, 1, 1, 1⟩] = .ok [true, true] ∧
    (∃ verdict, dangling.classify Config.usual ⟨4, 1, 1, 1⟩ = .ok verdict ∧
      some true = some verdict.accepted) ∧
    dangling.acceptMask Config.usual [⟨3, 1, 1, 1⟩, ⟨2, 1, 1, 1⟩] =
      .error (.unknownWorkflow "gone") ∧
    ∃ part ∈ ([⟨3, 1, 1, 1⟩, ⟨2, 1, 1, 1⟩] : List Part),
      dangling.classify Config.usual part = .error (.unknownWorkflow "gone") := by
  have masked : dangling.acceptMask Config.usual [⟨3, 1, 1, 1⟩, ⟨4, 1, 1, 1⟩] =
      .ok [true, true] := by
    decide
  have failed : dangling.acceptMask Config.usual [⟨3, 1, 1, 1⟩, ⟨2, 1, 1, 1⟩] =
      .error (.unknownWorkflow "gone") := by
    decide
  have rowwise := ((acceptMask_rowwise rfl (by decide)).2.1 _ masked).2 1 ⟨4, 1, 1, 1⟩ rfl
  have sameFault := (acceptMask_rowwise rfl (by decide)).2.2 _ failed
  exact ⟨masked, rowwise, failed, sameFault.2⟩

end PartSorting.Table
