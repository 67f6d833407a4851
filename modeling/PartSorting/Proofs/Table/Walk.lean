import Mathlib.Data.List.Nodup
import Mathlib.Data.List.Perm.Subperm
import PartSorting.Table.Walk

/-! # The outcomes of a walk

A walk that ends normally ends at a sink.  When cycles are detected, the names on its path are
distinct names of the table, so the path is never longer than the table and a walk that fails has
met a name again or a name without a workflow.  The judgement of a part is its walk, unless a
rating has too many digits for the report on the verdict. -/

set_option autoImplicit false

namespace PartSorting

/-- The faults of a walk that has gone wrong in the graph of the workflows: it met a name again,
or a name without a workflow. -/
inductive Fault.InGraph : Fault → Prop where
  | cycle (names : List String) : InGraph (.cyclicWorkflow names)
  | unknown (name : String) : InGraph (.unknownWorkflow name)

/-- A part with ratings that are too long to be written, though they add up to zero. -/
def Part.outsized : Part :=
  ⟨outsize, -outsize, outsize, -outsize⟩

theorem Part.not_spellable_outsized : ¬outsized.Spellable :=
  fun spellable => not_writable_outsize (spellable .x)

namespace Table

variable {table : Table} {detectCycles : Bool}

theorem isSink_of_arrive {path : List String} {name : String}
    (arrived : table.arrive detectCycles path name = .ok none) : table.isSink name = true := by
  simp only [arrive] at arrived
  split at arrived
  · assumption
  · split at arrived
    · contradiction
    · cases found : table.workflow name with
      | error fault => simp [found, Except.map] at arrived
      | ok workflow => simp [found, Except.map] at arrived

theorem name_of_arrive {path : List String} {name : String} {workflow : Workflow}
    (arrived : table.arrive detectCycles path name = .ok (some workflow)) :
    table.find? name = some workflow ∧ (detectCycles = true → name ∉ path) := by
  simp only [arrive] at arrived
  split at arrived
  · exact absurd arrived (by simp)
  · split at arrived
    · contradiction
    · rename_i fresh
      simp only [Table.workflow] at arrived
      cases found : table.find? name with
      | none => simp [found, Except.map] at arrived
      | some other =>
          simp only [found, Except.map, Except.ok.injEq, Option.some.injEq] at arrived
          exact ⟨congrArg some arrived, fun detect again => fresh ⟨detect, again⟩⟩

theorem mem_names_of_find? {name : String} {workflow : Workflow}
    (found : table.find? name = some workflow) : name ∈ table.names := by
  simp only [find?, List.lookup_eq_some_iff] at found
  obtain ⟨before, after, split, _⟩ := found
  simp only [names, split, List.map_append, List.map_cons, List.mem_append, List.mem_cons,
    true_or, or_true]

theorem find?_eq_none_iff {name : String} : table.find? name = none ↔ name ∉ table.names := by
  rw [find?, List.lookup_eq_none_iff]
  constructor
  · intro absent member
    obtain ⟨entry, isEntry, rfl⟩ := List.mem_map.mp member
    exact absurd (absent entry isEntry) (by simp)
  · intro absent entry isEntry
    have other : name ≠ entry.1 := by
      rintro rfl
      exact absent (List.mem_map_of_mem isEntry)
    simpa using other

theorem find?_eq_some_iff {name : String} {workflow : Workflow} :
    table.find? name = some workflow ↔ (name, workflow) ∈ table.entries := by
  rw [find?, List.lookup_eq_some_iff]
  constructor
  · rintro ⟨before, after, split, _⟩
    rw [split]
    exact List.mem_append_right before List.mem_cons_self
  · intro member
    obtain ⟨before, after, split⟩ := List.append_of_mem member
    refine ⟨before, after, split, fun other isBefore => ?_⟩
    have distinct := table.names_nodup
    rw [split, List.map_append, List.map_cons, List.nodup_append] at distinct
    have apart := distinct.2.2 other.1 (List.mem_map_of_mem isBefore) name List.mem_cons_self
    simpa using apart.symm

theorem isSink_of_mem_names {name : String} (member : name ∈ table.names) :
    table.isSink name = false := by
  have notAccept : name ≠ table.accept := by
    rintro rfl
    exact table.accept_not_name member
  have notReject : name ≠ table.reject := by
    rintro rfl
    exact table.reject_not_name member
  simp [isSink, notAccept, notReject]

/-- A walk cannot go on from a name that it has met before, if cycles count, or that is neither a
sink nor a name of the table. -/
theorem arrive_error_cases {path : List String} {name : String} {fault : Fault}
    (failed : table.arrive detectCycles path name = .error fault) :
    table.isSink name = false ∧
      ((name ∈ path ∧ fault = .cyclicWorkflow (path ++ [name])) ∨
        (name ∉ table.names ∧ fault = .unknownWorkflow name)) := by
  simp only [arrive] at failed
  split at failed
  · contradiction
  · rename_i notSink
    refine ⟨by simpa using notSink, ?_⟩
    split at failed
    · rename_i again
      exact .inl ⟨again.2, (Except.error.inj failed).symm⟩
    · simp only [Table.workflow] at failed
      cases found : table.find? name with
      | none =>
          simp only [found, Except.map, Except.error.injEq] at failed
          exact .inr ⟨find?_eq_none_iff.mp found, failed.symm⟩
      | some workflow => simp [found, Except.map] at failed

theorem inGraph_of_arrive {path : List String} {name : String} {fault : Fault}
    (failed : table.arrive detectCycles path name = .error fault) : fault.InGraph := by
  rcases (arrive_error_cases failed).2 with ⟨_, rfl⟩ | ⟨_, rfl⟩
  · exact .cycle _
  · exact .unknown _

structure Trail (table : Table) (path : List String) : Prop where
  nodup : path.Nodup
  names : ∀ name ∈ path, name ∈ table.names

theorem Trail.nil (table : Table) : table.Trail [] :=
  ⟨List.nodup_nil, fun _ member => absurd member List.not_mem_nil⟩

theorem Trail.concat {path : List String} {name : String} (trail : table.Trail path)
    (member : name ∈ table.names) (fresh : name ∉ path) : table.Trail (path ++ [name]) := by
  constructor
  · rw [List.nodup_append]
    refine ⟨trail.nodup, List.nodup_singleton name, ?_⟩
    intro other onPath last isLast
    obtain rfl := List.mem_singleton.mp isLast
    rintro rfl
    exact fresh onPath
  · intro other isOther
    rcases List.mem_append.mp isOther with onPath | isLast
    · exact trail.names other onPath
    · obtain rfl := List.mem_singleton.mp isLast
      exact member

theorem Trail.extend {path : List String} {name : String} {workflow : Workflow}
    (trail : table.Trail path) (arrived : table.arrive true path name = .ok (some workflow)) :
    table.Trail (path ++ [name]) := by
  obtain ⟨found, fresh⟩ := name_of_arrive arrived
  exact trail.concat (mem_names_of_find? found) (fresh rfl)

theorem Trail.perm {path other : List String} (trail : table.Trail path) (same : path.Perm other) :
    table.Trail other :=
  ⟨same.nodup_iff.mp trail.nodup, fun name member => trail.names name (same.mem_iff.mpr member)⟩

theorem Trail.sublist {path other : List String} (trail : table.Trail path)
    (within : other.Sublist path) : table.Trail other :=
  ⟨trail.nodup.sublist within, fun name member => trail.names name (within.subset member)⟩

theorem Trail.length_le {path : List String} (trail : table.Trail path) :
    path.length ≤ table.size := by
  have bounded := (trail.nodup.subperm trail.names).length_le
  simpa only [Table.names, Table.size, List.length_map] using bounded

theorem walkFrom_of_arrive_error {part : Part} {depth : Nat} {path : List String}
    {name : String} {fault : Fault}
    (failed : table.arrive detectCycles path name = .error fault) :
    table.walkFrom detectCycles part (depth + 1) path name = .error fault := by
  simp only [walkFrom, failed]

theorem walkFrom_of_arrive_none {part : Part} {depth : Nat} {path : List String}
    {name : String} (arrived : table.arrive detectCycles path name = .ok none) :
    table.walkFrom detectCycles part (depth + 1) path name =
      .ok ⟨part, name == table.accept, path, name⟩ := by
  simp only [walkFrom, arrived]

theorem walkFrom_of_arrive_some {part : Part} {depth : Nat} {path : List String}
    {name : String} {workflow : Workflow}
    (arrived : table.arrive detectCycles path name = .ok (some workflow)) :
    table.walkFrom detectCycles part (depth + 1) path name =
      table.walkFrom detectCycles part depth (path ++ [name]) (workflow.route part) := by
  simp only [walkFrom, arrived]

theorem walkFrom_ok {part : Part} {depth : Nat} {path : List String} {name : String}
    {verdict : Verdict}
    (walked : table.walkFrom detectCycles part depth path name = .ok verdict) :
    table.isSink verdict.terminal = true ∧
      verdict.accepted = (verdict.terminal == table.accept) := by
  induction depth generalizing path name with
  | zero => contradiction
  | succ depth ih =>
      cases arrived : table.arrive detectCycles path name with
      | error fault =>
          rw [walkFrom_of_arrive_error arrived] at walked
          contradiction
      | ok next =>
          cases next with
          | none =>
              rw [walkFrom_of_arrive_none arrived] at walked
              obtain rfl := Except.ok.inj walked
              exact ⟨isSink_of_arrive arrived, rfl⟩
          | some workflow =>
              rw [walkFrom_of_arrive_some arrived] at walked
              exact ih walked

theorem part_of_walkFrom {part : Part} {depth : Nat} {path : List String} {name : String}
    {verdict : Verdict}
    (walked : table.walkFrom detectCycles part depth path name = .ok verdict) :
    verdict.part = part := by
  induction depth generalizing path name with
  | zero => contradiction
  | succ depth ih =>
      cases arrived : table.arrive detectCycles path name with
      | error fault =>
          rw [walkFrom_of_arrive_error arrived] at walked
          contradiction
      | ok next =>
          cases next with
          | none =>
              rw [walkFrom_of_arrive_none arrived] at walked
              obtain rfl := Except.ok.inj walked
              rfl
          | some workflow =>
              rw [walkFrom_of_arrive_some arrived] at walked
              exact ih walked

/-- The depth of a walk is never what stops it. -/
theorem walkFrom_error {part : Part} {depth : Nat} {path : List String} {name : String}
    {fault : Fault} (trail : table.Trail path) (enough : table.size < depth + path.length)
    (failed : table.walkFrom true part depth path name = .error fault) :
    fault.InGraph := by
  induction depth generalizing path name with
  | zero =>
      have bounded := trail.length_le
      omega
  | succ depth ih =>
      cases arrived : table.arrive true path name with
      | error early =>
          rw [walkFrom_of_arrive_error arrived] at failed
          obtain rfl := Except.error.inj failed
          exact inGraph_of_arrive arrived
      | ok next =>
          cases next with
          | none =>
              rw [walkFrom_of_arrive_none arrived] at failed
              contradiction
          | some workflow =>
              rw [walkFrom_of_arrive_some arrived] at failed
              refine ih (trail.extend arrived) ?_ failed
              rw [List.length_append, List.length_singleton]
              omega

theorem walk_error {config : Config} {part : Part} {fault : Fault}
    (detect : config.detectCycles = true) (failed : table.walk config part = .error fault) :
    fault.InGraph := by
  rw [walk, detect] at failed
  exact walkFrom_error (Trail.nil table) (by simp [depth]) failed

section Judgement

variable {config : Config} {part : Part} {verdict : Verdict} {fault : Fault}

theorem outcome_judge (table : Table) (config : Config) (part : Part) :
    (table.judge config part).outcome = table.classify config part :=
  rfl

/-- A judgement is the walk and then the report on its verdict. -/
theorem classify_eq (table : Table) (config : Config) (part : Part) :
    table.classify config part = table.walk config part >>= fun verdict =>
      (Traced.report verdict.event).outcome >>= fun _ => .ok verdict := by
  simp only [classify, judge, Traced.outcome_bind, Traced.ofExcept, Traced.outcome_pure]

theorem classify_of_walk_error (failed : table.walk config part = .error fault) :
    table.classify config part = .error fault := by
  rw [classify_eq, failed]
  rfl

/-- A verdict is reported with the ratings of the part, so it is lost when one of them is too long
to be written. -/
theorem classify_of_walk_ok (walked : table.walk config part = .ok verdict) :
    table.classify config part =
      if part.Spellable then .ok verdict else .error .integerTooLong := by
  have samePart : verdict.part = part := part_of_walkFrom walked
  have writable : verdict.event.Writable ↔ part.Spellable := by
    rw [← samePart]
    exact Iff.rfl
  rw [classify_eq, walked]
  simp only [bind, Except.bind, Traced.outcome_report]
  by_cases spellable : part.Spellable
  · rw [if_pos spellable, if_pos (writable.mpr spellable)]
  · rw [if_neg spellable, if_neg (mt writable.mp spellable)]

theorem classify_of_spellable (spellable : part.Spellable) :
    table.classify config part = table.walk config part := by
  cases walked : table.walk config part with
  | error fault => exact classify_of_walk_error walked
  | ok verdict => rw [classify_of_walk_ok walked, if_pos spellable]

theorem classify_eq_ok_iff :
    table.classify config part = .ok verdict ↔
      table.walk config part = .ok verdict ∧ part.Spellable := by
  cases walked : table.walk config part with
  | error fault => simp [classify_of_walk_error walked]
  | ok other =>
      rw [classify_of_walk_ok walked]
      split <;> simp [*]

theorem classify_eq_error_iff :
    table.classify config part = .error fault ↔
      table.walk config part = .error fault ∨
        (∃ verdict, table.walk config part = .ok verdict) ∧ ¬part.Spellable ∧
          fault = .integerTooLong := by
  cases walked : table.walk config part with
  | error other => simp [classify_of_walk_error walked]
  | ok verdict =>
      rw [classify_of_walk_ok walked]
      split <;> simp [*, eq_comm]

theorem part_of_classify (classified : table.classify config part = .ok verdict) :
    verdict.part = part :=
  part_of_walkFrom (classify_eq_ok_iff.mp classified).1

/-- With cycle detection a judgement fails in the graph, or because a rating is too long. -/
theorem classify_error (detect : config.detectCycles = true)
    (failed : table.classify config part = .error fault) :
    fault.InGraph ∨ (fault = .integerTooLong ∧ ¬part.Spellable) := by
  rcases classify_eq_error_iff.mp failed with lost | ⟨_, notSpellable, tooLong⟩
  · exact .inl (walk_error detect lost)
  · exact .inr ⟨tooLong, notSpellable⟩

theorem walk_of_classify_error (failed : table.classify config part = .error fault)
    (other : fault ≠ .integerTooLong) : table.walk config part = .error fault := by
  rcases classify_eq_error_iff.mp failed with lost | ⟨_, _, tooLong⟩
  · exact lost
  · exact absurd tooLong other

end Judgement

def accepting : Table where
  entries := [("in", ⟨"in", [], "A"⟩)]
  accept := "A"
  reject := "R"
  names_nodup := by decide
  accept_not_name := by decide
  reject_not_name := by decide

def twoStage : Table where
  entries :=
    [("in", ⟨"in", [⟨⟨.x, .lessThan, 3⟩, "mid"⟩], "R"⟩),
      ("mid", ⟨"mid", [⟨⟨.m, .greaterThan, 2⟩, "A"⟩], "R"⟩)]
  accept := "A"
  reject := "R"
  names_nodup := by decide
  accept_not_name := by decide
  reject_not_name := by decide

def rejoining : Table where
  entries :=
    [("in", ⟨"in", [⟨⟨.x, .lessThan, 3⟩, "mid"⟩, ⟨⟨.m, .greaterThan, 2⟩, "mid"⟩], "R"⟩),
      ("mid", ⟨"mid", [⟨⟨.a, .lessThan, 2⟩, "A"⟩], "R"⟩)]
  accept := "A"
  reject := "R"
  names_nodup := by decide
  accept_not_name := by decide
  reject_not_name := by decide

def dangling : Table where
  entries := [("in", ⟨"in", [⟨⟨.x, .lessThan, 3⟩, "gone"⟩], "A"⟩)]
  accept := "A"
  reject := "R"
  names_nodup := by decide
  accept_not_name := by decide
  reject_not_name := by decide

/-- A table with two unknown names and a cycle, each of them met by some part. -/
def forked : Table where
  entries :=
    [("in", ⟨"in", [⟨⟨.x, .lessThan, 2⟩, "gone"⟩, ⟨⟨.x, .greaterThan, 2⟩, "lost"⟩], "in"⟩)]
  accept := "A"
  reject := "R"
  names_nodup := by decide
  accept_not_name := by decide
  reject_not_name := by decide

example : twoStage.classify Config.usual ⟨2, 3, 1, 1⟩ =
    .ok ⟨⟨2, 3, 1, 1⟩, true, ["in", "mid"], "A"⟩ := by
  decide +kernel

example : dangling.classify Config.usual ⟨2, 3, 1, 1⟩ = .error (.unknownWorkflow "gone") := by
  decide +kernel

end Table

end PartSorting
