import PartSorting.Proofs.Table.Search

/-! # When there is an order of the workflows

There is an order exactly if all that can be reached from the entry is a sink or a workflow, and
none of it leads back to itself.  The order then has just the workflows that can be reached.  A
search that fails has met one of the two obstacles, and its fault tells which. -/

set_option autoImplicit false

namespace PartSorting.Table

variable {table : Table} {entry name target : String} {order : List String}

namespace Ordered

theorem leads (ordered : table.Ordered order) (member : name ∈ order)
    (leads : table.Leads name target) :
    table.isSink target = true ∨ [name, target].Sublist order := by
  obtain ⟨before, later, rfl, _, ⟨workflow, found, targets⟩, _⟩ := ordered.split member
  apply (targets target (leads.mem_targets found)).imp_right
  intro behind
  have pair : [name, target].Sublist (name :: later) :=
    (List.singleton_sublist.mpr behind).cons_cons name
  exact pair.trans (List.sublist_append_right before _)

/-- All that is reached from the first name of an order stands behind it, sinks apart. -/
theorem behind {later : List String} (ordered : table.Ordered (name :: later))
    (reached : Relation.TransGen table.Leads name target) :
    table.isSink target = true ∨ target ∈ later := by
  induction reached with
  | single first =>
      obtain ⟨_, ⟨workflow, found, targets⟩, _⟩ := ordered
      exact targets _ (first.mem_targets found)
  | tail _ last ih =>
      have member := ih.resolve_left (by simp [last.not_isSink])
      exact (ordered.2.2.leads member last).imp_right fun pair => pair.subset (by simp)

end Ordered

theorem mem_order_of_canReach (searched : table.order entry = .ok order)
    (reached : table.CanReach entry name) : table.isSink name = true ∨ name ∈ order := by
  obtain ⟨ordered, first⟩ := ordered_order searched
  induction reached with
  | refl =>
      split at first
      · rename_i atSink
        exact .inl atSink
      · exact .inr (List.mem_of_head? first)
  | tail _ last ih =>
      have member := ih.resolve_left (by simp [last.not_isSink])
      exact (ordered.leads member last).imp_right fun pair => pair.subset (by simp)

theorem resolved_of_order (searched : table.order entry = .ok order) : table.Resolved entry :=
  fun _ reached => (mem_order_of_canReach searched reached).imp_right
    fun member => (ordered_order searched).1.names _ member

theorem acyclic_of_order (searched : table.order entry = .ok order) : table.Acyclic entry := by
  intro name reached back
  obtain ⟨next, first, _⟩ := Relation.TransGen.head'_iff.mp back
  have member := (mem_order_of_canReach searched reached).resolve_left (by simp [first.not_isSink])
  obtain ⟨before, later, _, ordered⟩ := (ordered_order searched).1.split member
  rcases ordered.behind back with atSink | again
  · rw [first.not_isSink] at atSink
    contradiction
  · exact ordered.1 again

theorem exists_order (resolved : table.Resolved entry) (acyclic : table.Acyclic entry) :
    ∃ order, table.order entry = .ok order := by
  cases searched : table.order entry with
  | ok order => exact ⟨order, rfl⟩
  | error fault =>
      rcases order_error_cases searched with ⟨_, _, cycle⟩ | ⟨name, _, dangles⟩
      · obtain ⟨first, reached, back⟩ := cycle.transGen
        exact absurd back (acyclic first reached)
      · rcases resolved name dangles.canReach with atSink | isName
        · rw [dangles.1] at atSink
          contradiction
        · exact absurd isName dangles.2.1

/-- The search ends, as a loop within two turns for each workflow.  It finds an order exactly if
all that can be reached is resolved and acyclic.  The order has the workflows that can be reached,
each once, the entry first, and each before its successors. -/
theorem order_topological (table : Table) (entry : String) :
    table.orderWithin? (2 * table.size) entry = some (table.order entry) ∧
    ((∃ order, table.order entry = .ok order) ↔ table.Resolved entry ∧ table.Acyclic entry) ∧
    ∀ order, table.order entry = .ok order →
      order.Nodup ∧
      (∀ name, name ∈ order ↔ name ∈ table.names ∧ table.CanReach entry name) ∧
      order.head? = (if table.isSink entry then none else some entry) ∧
      ∀ name ∈ order, ∀ target, table.Leads name target → table.isSink target = false →
        [name, target].Sublist order := by
  refine ⟨orderWithin?_eq table entry, ⟨?_, fun both => exists_order both.1 both.2⟩, ?_⟩
  · rintro ⟨order, searched⟩
    exact ⟨resolved_of_order searched, acyclic_of_order searched⟩
  · intro order searched
    obtain ⟨ordered, first⟩ := ordered_order searched
    refine ⟨ordered.nodup, fun name => ⟨?_, ?_⟩, first, ?_⟩
    · exact fun member => ⟨ordered.names name member, canReach_of_mem_order searched member⟩
    · rintro ⟨isName, reached⟩
      exact (mem_order_of_canReach searched reached).resolve_left
        (by simp [isSink_of_mem_names isName])
    · intro name member target leads notSink
      exact (ordered.leads member leads).resolve_left (by simp [notSink])

def diamond : Table where
  entries :=
    [("in", ⟨"in", [⟨⟨.x, .lessThan, 3⟩, "left"⟩], "right"⟩),
      ("left", ⟨"left", [], "last"⟩),
      ("right", ⟨"right", [⟨⟨.a, .greaterThan, 1⟩, "last"⟩], "R"⟩),
      ("last", ⟨"last", [], "A"⟩)]
  accept := "A"
  reject := "R"
  names_nodup := by decide
  accept_not_name := by decide
  reject_not_name := by decide

theorem order_topological_diamond :
    diamond.order "in" = .ok ["in", "right", "left", "last"] ∧
    diamond.orderWithin? 8 "in" = some (.ok ["in", "right", "left", "last"]) ∧
    diamond.Resolved "in" ∧ diamond.Acyclic "in" ∧ diamond.CanReach "in" "last" ∧
    ["right", "last"].Sublist ["in", "right", "left", "last"] := by
  have searched : diamond.order "in" = .ok ["in", "right", "left", "last"] := by decide
  obtain ⟨loop, found, contents⟩ := order_topological diamond "in"
  obtain ⟨resolved, acyclic⟩ := found.mp ⟨_, searched⟩
  obtain ⟨_, members, _, before⟩ := contents _ searched
  have reached := ((members "last").mp (by decide)).2
  have leads : diamond.Leads "right" "last" := ⟨["last", "R"], by decide, by decide⟩
  exact ⟨searched, loop.trans (congrArg some searched), resolved, acyclic, reached,
    before "right" (by decide) "last" leads (by decide)⟩

/-- A search fails only with a cycle that can be reached, which it shows, or with an unknown name
that is the entry or a target of what can be reached.  Where nothing leads back to itself it shows
no cycle. -/
theorem order_error_witnessed (table : Table) (entry : String) :
    (∀ path, table.order entry = .error (.cyclicWorkflow path) →
      table.ReachedCycle entry path) ∧
    (∀ name, table.order entry = .error (.unknownWorkflow name) → table.Dangles entry name) ∧
    (table.Acyclic entry → ∀ path, table.order entry ≠ .error (.cyclicWorkflow path)) ∧
    ∀ fault, table.order entry = .error fault → fault.InGraph := by
  have shown : ∀ path, table.order entry = .error (.cyclicWorkflow path) →
      table.ReachedCycle entry path := by
    intro path failed
    rcases order_error_cases failed with ⟨other, same, cycle⟩ | ⟨_, impossible, _⟩
    · obtain rfl := Fault.cyclicWorkflow.inj same
      exact cycle
    · contradiction
  refine ⟨shown, ?_, ?_, ?_⟩
  · intro name failed
    rcases order_error_cases failed with ⟨_, impossible, _⟩ | ⟨other, same, dangles⟩
    · contradiction
    · obtain rfl := Fault.unknownWorkflow.inj same
      exact dangles
  · intro acyclic path failed
    obtain ⟨first, reached, back⟩ := (shown path failed).transGen
    exact acyclic first reached back
  · intro fault failed
    rcases order_error_cases failed with ⟨path, rfl, _⟩ | ⟨name, rfl, _⟩
    · exact .cycle path
    · exact .unknown name

/-- A table with a cycle that the entry is not on. -/
def circling : Table where
  entries :=
    [("in", ⟨"in", [⟨⟨.x, .lessThan, 3⟩, "A"⟩], "mid"⟩),
      ("mid", ⟨"mid", [⟨⟨.m, .greaterThan, 2⟩, "last"⟩], "R"⟩),
      ("last", ⟨"last", [], "mid"⟩)]
  accept := "A"
  reject := "R"
  names_nodup := by decide
  accept_not_name := by decide
  reject_not_name := by decide

theorem order_error_witnessed_circling :
    circling.order "in" = .error (.cyclicWorkflow ["mid", "last", "mid"]) ∧
    circling.ReachedCycle "in" ["mid", "last", "mid"] ∧
    dangling.order "in" = .error (.unknownWorkflow "gone") ∧ dangling.Dangles "in" "gone" ∧
    diamond.Acyclic "in" ∧ ∀ path, diamond.order "in" ≠ .error (.cyclicWorkflow path) := by
  have cyclic : circling.order "in" = .error (.cyclicWorkflow ["mid", "last", "mid"]) := by decide
  have unknown : dangling.order "in" = .error (.unknownWorkflow "gone") := by decide
  have found : diamond.order "in" = .ok ["in", "right", "left", "last"] := by decide
  have acyclic := acyclic_of_order found
  exact ⟨cyclic, (order_error_witnessed circling "in").1 _ cyclic, unknown,
    (order_error_witnessed dangling "in").2.1 _ unknown, acyclic,
    (order_error_witnessed diamond "in").2.2.1 acyclic⟩

end PartSorting.Table
