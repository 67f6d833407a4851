import PartSorting.Table

/-! # What keeps workflows from making a table

Workflows make a table exactly if their names are distinct and none of them is a sink.  Otherwise
the first name that stands twice is reported, and only when there is none the name of a sink, the
accepting one first. -/

set_option autoImplicit false

namespace PartSorting

namespace Table

/-- What keeps workflows from making a table: a name that stands before, or the name of a sink. -/
inductive Collision (workflows : List Workflow) (accept reject : String) : Fault → Prop where
  | duplicate (before : List Workflow) (workflow : Workflow) (after : List Workflow)
      (split : workflows = before ++ workflow :: after)
      (distinct : (before.map Workflow.name).Nodup)
      (again : workflow.name ∈ before.map Workflow.name) :
      Collision workflows accept reject (.workflow (.duplicateName workflow.name))
  | accept (distinct : (workflows.map Workflow.name).Nodup)
      (taken : accept ∈ workflows.map Workflow.name) :
      Collision workflows accept reject (.workflow (.sinkName accept))
  | reject (distinct : (workflows.map Workflow.name).Nodup)
      (free : accept ∉ workflows.map Workflow.name)
      (taken : reject ∈ workflows.map Workflow.name) :
      Collision workflows accept reject (.workflow (.sinkName reject))

variable {workflows : List Workflow} {accept reject : String}

theorem firstRepeat?_names_eq_none_iff :
    Names.firstRepeat? [] (workflows.map Workflow.name) = none ↔
      (workflows.map Workflow.name).Nodup := by
  rw [Names.firstRepeat?_eq_none_iff]
  exact and_iff_left fun _ _ => List.not_mem_nil

theorem firstRepeat?_names_eq_some_iff {name : String} :
    Names.firstRepeat? [] (workflows.map Workflow.name) = some name ↔
      ∃ before workflow after, workflows = before ++ workflow :: after ∧
        (before.map Workflow.name).Nodup ∧ workflow.name ∈ before.map Workflow.name ∧
        workflow.name = name := by
  rw [Names.firstRepeat?_eq_some_iff]
  constructor
  · rintro ⟨namesBefore, namesAfter, divided, fresh, again⟩
    obtain ⟨before, rest, rfl, rfl, named⟩ := List.map_eq_append_iff.mp divided
    obtain ⟨workflow, after, rfl, rfl, rfl⟩ := List.map_eq_cons_iff.mp named
    exact ⟨before, workflow, after, rfl, firstRepeat?_names_eq_none_iff.mp fresh,
      again.resolve_left List.not_mem_nil, rfl⟩
  · rintro ⟨before, workflow, after, rfl, distinct, again, rfl⟩
    exact ⟨before.map Workflow.name, after.map Workflow.name, by simp,
      firstRepeat?_names_eq_none_iff.mpr distinct, .inr again⟩

theorem keys_entries (workflows : List Workflow) :
    (workflows.map fun workflow => (workflow.name, workflow)).map Prod.fst =
      workflows.map Workflow.name := by
  rw [List.map_map]
  rfl

theorem ofWorkflows_of_repeated {name : String}
    (repeated : Names.firstRepeat? [] (workflows.map Workflow.name) = some name) :
    ofWorkflows workflows accept reject = .error (.workflow (.duplicateName name)) := by
  simp only [ofWorkflows]
  split
  · rename_i other found
    rw [keys_entries, repeated] at found
    rw [Option.some.inj found]
  · rename_i fresh
    rw [keys_entries, repeated] at fresh
    contradiction

/-- Workflows with distinct names make a table unless one of them has the name of a sink. -/
theorem ofWorkflows_of_nodup (distinct : (workflows.map Workflow.name).Nodup) :
    ofWorkflows workflows accept reject =
      if accepted : accept ∈ workflows.map Workflow.name then .error (.workflow (.sinkName accept))
      else if rejected : reject ∈ workflows.map Workflow.name then
        .error (.workflow (.sinkName reject))
      else .ok ⟨workflows.map fun workflow => (workflow.name, workflow), accept, reject,
        (keys_entries workflows).symm ▸ distinct, (keys_entries workflows).symm ▸ accepted,
        (keys_entries workflows).symm ▸ rejected⟩ := by
  have fresh := firstRepeat?_names_eq_none_iff.mpr distinct
  simp only [ofWorkflows]
  split
  · rename_i name found
    rw [keys_entries, fresh] at found
    contradiction
  · simp only [keys_entries]

theorem ofWorkflows_eq_error_iff {fault : Fault} :
    ofWorkflows workflows accept reject = .error fault ↔
      Collision workflows accept reject fault := by
  constructor
  · intro failed
    cases repeated : Names.firstRepeat? [] (workflows.map Workflow.name) with
    | some name =>
        rw [ofWorkflows_of_repeated repeated] at failed
        obtain ⟨before, workflow, after, division, distinct, again, rfl⟩ :=
          firstRepeat?_names_eq_some_iff.mp repeated
        obtain rfl := Except.error.inj failed
        exact .duplicate before workflow after division distinct again
    | none =>
        have distinct := firstRepeat?_names_eq_none_iff.mp repeated
        rw [ofWorkflows_of_nodup distinct] at failed
        split at failed
        · rename_i taken
          obtain rfl := Except.error.inj failed
          exact .accept distinct taken
        · rename_i free
          split at failed
          · rename_i taken
            obtain rfl := Except.error.inj failed
            exact .reject distinct free taken
          · contradiction
  · intro collision
    cases collision with
    | duplicate before workflow after division distinct again =>
        apply ofWorkflows_of_repeated
        exact firstRepeat?_names_eq_some_iff.mpr
          ⟨before, workflow, after, division, distinct, again, rfl⟩
    | accept distinct taken => rw [ofWorkflows_of_nodup distinct, dif_pos taken]
    | reject distinct free taken =>
        rw [ofWorkflows_of_nodup distinct, dif_neg free, dif_pos taken]

theorem ofWorkflows_eq_ok_iff {table : Table} :
    ofWorkflows workflows accept reject = .ok table ↔
      (workflows.map Workflow.name).Nodup ∧ accept ∉ workflows.map Workflow.name ∧
        reject ∉ workflows.map Workflow.name ∧
        table.entries = workflows.map (fun workflow => (workflow.name, workflow)) ∧
        table.accept = accept ∧ table.reject = reject := by
  constructor
  · intro made
    cases repeated : Names.firstRepeat? [] (workflows.map Workflow.name) with
    | some name =>
        rw [ofWorkflows_of_repeated repeated] at made
        contradiction
    | none =>
        have distinct := firstRepeat?_names_eq_none_iff.mp repeated
        rw [ofWorkflows_of_nodup distinct] at made
        split at made
        · contradiction
        · rename_i notAccept
          split at made
          · contradiction
          · rename_i notReject
            obtain rfl := Except.ok.inj made
            exact ⟨distinct, notAccept, notReject, rfl, rfl, rfl⟩
  · rintro ⟨distinct, notAccept, notReject, listed, rfl, rfl⟩
    rw [ofWorkflows_of_nodup distinct, dif_neg notAccept, dif_neg notReject]
    simp only [← listed]

theorem names_of_ofWorkflows {table : Table}
    (made : ofWorkflows workflows accept reject = .ok table) :
    table.names = workflows.map Workflow.name := by
  obtain ⟨_, _, _, listed, _⟩ := ofWorkflows_eq_ok_iff.mp made
  rw [names, listed, keys_entries]

theorem exists_ofWorkflows_iff :
    (∃ table, ofWorkflows workflows accept reject = .ok table) ↔
      (workflows.map Workflow.name).Nodup ∧ accept ∉ workflows.map Workflow.name ∧
        reject ∉ workflows.map Workflow.name := by
  constructor
  · rintro ⟨table, made⟩
    obtain ⟨distinct, notAccept, notReject, _⟩ := ofWorkflows_eq_ok_iff.mp made
    exact ⟨distinct, notAccept, notReject⟩
  · rintro ⟨distinct, notAccept, notReject⟩
    exact ⟨_, by rw [ofWorkflows_of_nodup distinct, dif_neg notAccept, dif_neg notReject]⟩

theorem ofWorkflows_ok
    (distinct : (workflows.map Workflow.name).Nodup)
    (notAccept : accept ∉ workflows.map Workflow.name)
    (notReject : reject ∉ workflows.map Workflow.name) :
    ∃ table, ofWorkflows workflows accept reject = .ok table ∧
      table.entries = workflows.map (fun workflow => (workflow.name, workflow)) ∧
      table.accept = accept ∧ table.reject = reject := by
  obtain ⟨table, made⟩ := exists_ofWorkflows_iff.mpr ⟨distinct, notAccept, notReject⟩
  obtain ⟨_, _, _, same⟩ := ofWorkflows_eq_ok_iff.mp made
  exact ⟨table, made, same⟩

end Table

end PartSorting
