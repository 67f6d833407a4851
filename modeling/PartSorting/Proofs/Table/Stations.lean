import PartSorting.Proofs.Table.Walk

/-! # The stations of a part

From the entry on, each workflow sends a part to one name, and any other name sends it nowhere.
The names that it comes to in this way are its stations.  The first station that is a sink, has no
workflow, or was met before has a number not above the size of the table, and what it is decides
the outcome of the walk: the verdict there, an unknown name, or a cycle.  The judgement has the
same outcome, except that a part with a rating too long to be written gets no verdict. -/

set_option autoImplicit false

namespace PartSorting.Table

/-- The name to which a part goes on from a name.  It goes nowhere from a name without a workflow,
and so from no sink. -/
def next? (table : Table) (part : Part) (name : String) : Option String :=
  (table.find? name).map fun workflow => workflow.route part

def station (table : Table) (entry : String) (part : Part) : Nat → Option String
  | 0 => some entry
  | k + 1 => (station table entry part k).bind (table.next? part)

def Stops (table : Table) (entry : String) (part : Part) (k : Nat) : Prop :=
  ∃ name, table.station entry part k = some name ∧
    (table.isSink name = true ∨
      (table.isSink name = false ∧ name ∉ table.names) ∨
      ∃ j < k, table.station entry part j = some name)

/-- A part stands at a station, none before which is a stop.  The path lists the stations before,
which are distinct names of the table. -/
structure Underway (table : Table) (entry : String) (part : Part) (path : List String)
    (name : String) : Prop where
  trail : table.Trail path
  passed : ∀ k < path.length, path[k]? = table.station entry part k
  here : table.station entry part path.length = some name
  unstopped : ∀ k < path.length, ¬table.Stops entry part k

/-- What becomes of a part that has come along a path to its first stop: the verdict there at a
sink, the fault that the name is unknown, or the fault that the path to it is a cycle. -/
inductive EndsAt (table : Table) (part : Part) (path : List String) (name : String) :
    Except Fault Verdict → Prop where
  | sink (atSink : table.isSink name = true) :
      EndsAt table part path name (.ok ⟨part, name == table.accept, path, name⟩)
  | unknown (notSink : table.isSink name = false) (noWorkflow : name ∉ table.names) :
      EndsAt table part path name (.error (.unknownWorkflow name))
  | cycle (again : name ∈ path) :
      EndsAt table part path name (.error (.cyclicWorkflow (path ++ [name])))

variable {table : Table} {entry : String} {part : Part} {path : List String} {name : String}

namespace Underway

theorem start (table : Table) (entry : String) (part : Part) : table.Underway entry part [] entry :=
  ⟨Trail.nil table, fun _ impossible => absurd impossible (Nat.not_lt_zero _), rfl,
    fun _ impossible => absurd impossible (Nat.not_lt_zero _)⟩

theorem mem_path_iff (underway : table.Underway entry part path name) {other : String} :
    other ∈ path ↔ ∃ k < path.length, table.station entry part k = some other := by
  rw [List.mem_iff_getElem?]
  constructor
  · rintro ⟨k, listed⟩
    have inside : k < path.length := (List.getElem?_eq_some_iff.mp listed).1
    exact ⟨k, inside, (underway.passed k inside).symm.trans listed⟩
  · rintro ⟨k, inside, met⟩
    exact ⟨k, (underway.passed k inside).trans met⟩

theorem stops_iff (underway : table.Underway entry part path name) :
    table.Stops entry part path.length ↔
      table.isSink name = true ∨ (table.isSink name = false ∧ name ∉ table.names) ∨
        name ∈ path := by
  rw [underway.mem_path_iff]
  constructor
  · rintro ⟨other, met, stop⟩
    obtain rfl := Option.some.inj (underway.here.symm.trans met)
    exact stop
  · intro stop
    exact ⟨name, underway.here, stop⟩

/-- A workflow that was not met before is no stop, and sends the part on to the next station. -/
theorem extend (underway : table.Underway entry part path name) {workflow : Workflow}
    (arrived : table.arrive true path name = .ok (some workflow)) :
    table.Underway entry part (path ++ [name]) (workflow.route part) := by
  obtain ⟨found, fresh⟩ := name_of_arrive arrived
  have isName := mem_names_of_find? found
  have goesOn : ¬table.Stops entry part path.length := by
    rw [underway.stops_iff]
    rintro (atSink | ⟨_, unknown⟩ | again)
    · rw [isSink_of_mem_names isName] at atSink
      contradiction
    · exact unknown isName
    · exact fresh rfl again
  have last : ∀ k < (path ++ [name]).length, k < path.length ∨ k = path.length := by
    intro k inside
    rw [List.length_append, List.length_singleton] at inside
    omega
  refine ⟨underway.trail.extend arrived, ?_, ?_, ?_⟩
  · intro k inside
    rcases last k inside with before | rfl
    · rw [List.getElem?_append_left before]
      exact underway.passed k before
    · rw [List.getElem?_concat_length]
      exact underway.here.symm
  · rw [List.length_append, List.length_singleton, station, underway.here, Option.bind_some, next?,
      found]
    rfl
  · intro k inside
    rcases last k inside with before | rfl
    · exact underway.unstopped k before
    · exact goesOn

/-- A walk that detects cycles goes on to the first stop, which decides its outcome. -/
theorem walkFrom {depth : Nat} (underway : table.Underway entry part path name)
    (enough : table.size < depth + path.length) :
    ∃ passed last, table.Underway entry part passed last ∧
      table.EndsAt part passed last (table.walkFrom true part depth path name) := by
  induction depth generalizing path name with
  | zero =>
      have bounded := underway.trail.length_le
      omega
  | succ depth ih =>
      cases arrived : table.arrive true path name with
      | error fault =>
          rw [walkFrom_of_arrive_error arrived]
          obtain ⟨notSink, ⟨again, rfl⟩ | ⟨unknown, rfl⟩⟩ := arrive_error_cases arrived
          · exact ⟨path, name, underway, .cycle again⟩
          · exact ⟨path, name, underway, .unknown notSink unknown⟩
      | ok next =>
          cases next with
          | none =>
              rw [walkFrom_of_arrive_none arrived]
              exact ⟨path, name, underway, .sink (isSink_of_arrive arrived)⟩
          | some workflow =>
              rw [walkFrom_of_arrive_some arrived]
              apply ih (underway.extend arrived)
              rw [List.length_append, List.length_singleton]
              omega

end Underway

variable {config : Config}

theorem EndsAt.stops {outcome : Except Fault Verdict}
    (ends : table.EndsAt part path name outcome)
    (underway : table.Underway entry part path name) : table.Stops entry part path.length := by
  rw [underway.stops_iff]
  cases ends with
  | sink atSink => exact .inl atSink
  | unknown notSink noWorkflow => exact .inr (.inl ⟨notSink, noWorkflow⟩)
  | cycle again => exact .inr (.inr again)

theorem Underway.not_mem_of_isSink (underway : table.Underway entry part path name)
    (atSink : table.isSink name = true) : name ∉ path := by
  intro again
  rw [isSink_of_mem_names (underway.trail.names name again)] at atSink
  contradiction

/-- The judgement ends where the walk does unless the report on a verdict fails. -/
theorem endsAt_classify_iff (underway : table.Underway config.entry part path name)
    (ends : table.EndsAt part path name (table.walk config part)) :
    table.EndsAt part path name (table.classify config part) ↔
      (table.isSink name = true → part.Spellable) := by
  generalize walked : table.walk config part = outcome at ends
  cases ends with
  | sink atSink =>
      rw [classify_of_walk_ok walked]
      by_cases spellable : part.Spellable
      · rw [if_pos spellable]
        exact iff_of_true (.sink atSink) fun _ => spellable
      · rw [if_neg spellable]
        apply iff_of_false
        · intro impossible
          cases impossible
        · exact fun spelt => spellable (spelt atSink)
  | unknown notSink noWorkflow =>
      rw [classify_of_walk_error walked]
      refine iff_of_true (.unknown notSink noWorkflow) fun atSink => ?_
      rw [notSink] at atSink
      contradiction
  | cycle again =>
      rw [classify_of_walk_error walked]
      refine iff_of_true (.cycle again) fun atSink => ?_
      exact absurd again (underway.not_mem_of_isSink atSink)

/-- When cycles are detected, the first stop of a part comes after at most as many stations as the
table has workflows, and it decides the walk: a verdict with the stations before if the stop is a
sink, the fault that its name is unknown if it has no workflow, and otherwise the fault that the
path to it is a cycle.  The judgement has this outcome exactly if the stop is no sink or the ratings
can be written; if they cannot, a stop at a sink ends in the fault that an integer is too long. -/
theorem classify_firstStop (detect : config.detectCycles = true) (part : Part) :
    ∃ path name, table.Underway config.entry part path name ∧
      table.Stops config.entry part path.length ∧ path.length ≤ table.size ∧
      table.EndsAt part path name (table.walk config part) ∧
      (table.EndsAt part path name (table.classify config part) ↔
        (table.isSink name = true → part.Spellable)) ∧
      (table.isSink name = true → ¬part.Spellable →
        table.classify config part = .error .integerTooLong) := by
  obtain ⟨path, name, underway, ends⟩ :=
    (Underway.start table config.entry part).walkFrom (Nat.lt_succ_self table.size)
  have walked : table.walk config part =
      table.walkFrom true part table.depth [] config.entry := by
    rw [walk, detect]
  have endsHere : table.EndsAt part path name (table.walk config part) := walked ▸ ends
  refine ⟨path, name, underway, ends.stops underway, underway.trail.length_le, endsHere,
    endsAt_classify_iff underway endsHere, ?_⟩
  intro atSink notSpellable
  generalize outcomeEq : table.walk config part = outcome at endsHere
  cases endsHere with
  | sink _ => rw [classify_of_walk_ok outcomeEq, if_neg notSpellable]
  | unknown notSink _ =>
      rw [notSink] at atSink
      contradiction
  | cycle again => exact absurd again (underway.not_mem_of_isSink atSink)

theorem classify_firstStop_forked :
    forked.classify Config.usual ⟨2, 1, 1, 1⟩ = .error (.cyclicWorkflow ["in", "in"]) ∧
    ∃ path name, forked.Underway "in" ⟨2, 1, 1, 1⟩ path name ∧
      forked.Stops "in" ⟨2, 1, 1, 1⟩ path.length ∧ path.length ≤ 1 ∧ name ∈ path ∧
      path ++ [name] = ["in", "in"] := by
  have walked : forked.walk Config.usual ⟨2, 1, 1, 1⟩ = .error (.cyclicWorkflow ["in", "in"]) := by
    decide
  refine ⟨classify_of_walk_error walked, ?_⟩
  obtain ⟨path, name, underway, stops, short, ends, _⟩ :=
    @classify_firstStop forked Config.usual rfl ⟨2, 1, 1, 1⟩
  rw [walked] at ends
  generalize names : ["in", "in"] = cycle at ends
  cases ends with
  | cycle again => exact ⟨path, name, underway, stops, short, again, rfl⟩

/-- The walk of the part ends at the accepting sink, but the judgement ends in no outcome that a
stop decides. -/
theorem classify_outsized :
    accepting.walk Config.usual .outsized = .ok ⟨.outsized, true, ["in"], "A"⟩ ∧
    accepting.classify Config.usual .outsized = .error .integerTooLong ∧
    ¬∃ path name, accepting.Underway "in" .outsized path name ∧
      accepting.Stops "in" .outsized path.length ∧
      accepting.EndsAt .outsized path name (accepting.classify Config.usual .outsized) := by
  have walked : accepting.walk Config.usual .outsized =
      .ok ⟨.outsized, true, ["in"], "A"⟩ := rfl
  have lost : accepting.classify Config.usual .outsized = .error .integerTooLong := by
    rw [classify_of_walk_ok walked, if_neg Part.not_spellable_outsized]
  refine ⟨walked, lost, ?_⟩
  rintro ⟨path, name, _, _, ends⟩
  rw [lost] at ends
  cases ends

end PartSorting.Table
