import Mathlib.Data.List.Chain
import Mathlib.Logic.Relation
import PartSorting.Proofs.Table.Order

/-! # Names that can be reached from a name

A name leads to its successors.  Only a workflow has successors, so nothing is reached beyond a
sink or an unknown name. -/

set_option autoImplicit false

namespace PartSorting.Table

def Leads (table : Table) (name target : String) : Prop :=
  ∃ successors, table.successors name = .ok successors ∧ target ∈ successors

abbrev CanReach (table : Table) : String → String → Prop :=
  Relation.ReflTransGen table.Leads

def Resolved (table : Table) (entry : String) : Prop :=
  ∀ name, table.CanReach entry name → table.isSink name = true ∨ name ∈ table.names

def Acyclic (table : Table) (entry : String) : Prop :=
  ∀ name, table.CanReach entry name → ¬Relation.TransGen table.Leads name name

/-- A cycle that can be reached from the entry.  Its first name comes again at the end, the names
before that are distinct workflows, and each name is a successor of the one before it. -/
def ReachedCycle (table : Table) (entry : String) (path : List String) : Prop :=
  ∃ first others, path = first :: others ++ [first] ∧ table.Trail (first :: others) ∧
    path.IsChain table.Leads ∧ table.CanReach entry first

/-- A name that is neither a sink nor a workflow, and is the entry or a successor of a name that
can be reached from it. -/
def Dangles (table : Table) (entry name : String) : Prop :=
  table.isSink name = false ∧ name ∉ table.names ∧
    (name = entry ∨ ∃ source, table.CanReach entry source ∧ table.Leads source name)

variable {table : Table} {entry name target : String}

theorem successors_of_find? {workflow : Workflow} (found : table.find? name = some workflow) :
    table.successors name = .ok (Names.distinct [] workflow.targets) := by
  simp only [successors, Table.workflow, found, Except.map]

theorem successors_cases (table : Table) (name : String) :
    (∃ workflow, table.find? name = some workflow ∧
      table.successors name = .ok (Names.distinct [] workflow.targets)) ∨
    (name ∉ table.names ∧ table.successors name = .error (.unknownWorkflow name)) := by
  cases found : table.find? name with
  | none =>
      refine .inr ⟨find?_eq_none_iff.mp found, ?_⟩
      simp only [successors, Table.workflow, found, Except.map]
  | some workflow => exact .inl ⟨workflow, rfl, successors_of_find? found⟩

theorem leads_iff : table.Leads name target ↔
    ∃ workflow, table.find? name = some workflow ∧ target ∈ workflow.targets := by
  constructor
  · rintro ⟨successors, ok, member⟩
    obtain ⟨workflow, found, same⟩ := successors_ok ok
    exact ⟨workflow, found, (same target).mp member⟩
  · rintro ⟨workflow, found, member⟩
    exact ⟨_, successors_of_find? found,
      Names.mem_distinct.mpr ⟨member, List.not_mem_nil⟩⟩

theorem Leads.mem_targets (leads : table.Leads name target) {workflow : Workflow}
    (found : table.find? name = some workflow) : target ∈ workflow.targets := by
  obtain ⟨other, foundToo, isTarget⟩ := leads_iff.mp leads
  obtain rfl := Option.some.inj (found.symm.trans foundToo)
  exact isTarget

theorem Leads.mem_names (leads : table.Leads name target) : name ∈ table.names := by
  obtain ⟨workflow, found, _⟩ := leads_iff.mp leads
  exact mem_names_of_find? found

theorem Leads.not_isSink (leads : table.Leads name target) : table.isSink name = false :=
  isSink_of_mem_names leads.mem_names

theorem Dangles.canReach (dangles : table.Dangles entry name) : table.CanReach entry name := by
  rcases dangles.2.2 with rfl | ⟨source, reached, leads⟩
  · exact .refl
  · exact reached.tail leads

theorem dangles_of_canReach (reached : table.CanReach entry name)
    (notSink : table.isSink name = false) (unknown : name ∉ table.names) :
    table.Dangles entry name := by
  refine ⟨notSink, unknown, ?_⟩
  rcases Relation.ReflTransGen.cases_tail reached with isEntry | ⟨source, before, leads⟩
  · exact .inl isEntry
  · exact .inr ⟨source, before, leads⟩

theorem ReachedCycle.transGen {path : List String} (cycle : table.ReachedCycle entry path) :
    ∃ first, table.CanReach entry first ∧ Relation.TransGen table.Leads first first := by
  obtain ⟨first, others, rfl, _, chain, reached⟩ := cycle
  refine ⟨first, reached, ?_⟩
  cases others with
  | nil => exact .single (List.isChain_pair.mp chain)
  | cons second others =>
      rw [List.cons_append, List.cons_append, List.isChain_cons_cons] at chain
      have back := List.relationReflTransGen_of_exists_isChain_cons (b := first) _ chain.2
        (List.getLast_concat (l := second :: others))
      exact .head' chain.1 back

end PartSorting.Table
