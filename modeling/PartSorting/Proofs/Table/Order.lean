import PartSorting.Proofs.Outcome
import PartSorting.Proofs.Table.Walk
import PartSorting.Table.Order

/-! # Orders in which every workflow stands before its targets

The search for an order keeps a list in which the targets of every workflow are sinks or stand
later.  Whoever enters the table at a name of such a list only ever moves forward in it, so nobody
comes back to a name, meets an unknown one, or passes more names than the list has. -/

set_option autoImplicit false

namespace PartSorting.Table

/-- Every name has a workflow whose targets are sinks or stand later, and stands there once. -/
def Ordered (table : Table) : List String → Prop
  | [] => True
  | name :: later =>
    name ∉ later ∧
      (∃ workflow, table.find? name = some workflow ∧
        ∀ target ∈ workflow.targets, table.isSink target = true ∨ target ∈ later) ∧
      Ordered table later

variable {table : Table} {detectCycles : Bool}

namespace Ordered

theorem nodup {order : List String} (ordered : table.Ordered order) : order.Nodup := by
  induction order with
  | nil => exact List.nodup_nil
  | cons name later ih =>
      obtain ⟨fresh, _, laterOrdered⟩ := ordered
      exact List.nodup_cons.mpr ⟨fresh, ih laterOrdered⟩

theorem names {order : List String} (ordered : table.Ordered order) :
    ∀ name ∈ order, name ∈ table.names := by
  induction order with
  | nil => exact fun _ member => absurd member List.not_mem_nil
  | cons first later ih =>
      obtain ⟨_, ⟨workflow, found, _⟩, laterOrdered⟩ := ordered
      intro name member
      rcases List.mem_cons.mp member with rfl | other
      · exact mem_names_of_find? found
      · exact ih laterOrdered name other

theorem length_lt_depth {order : List String} (ordered : table.Ordered order) :
    order.length < table.depth := by
  have bounded := Trail.length_le ⟨ordered.nodup, ordered.names⟩
  exact Nat.lt_succ_of_le bounded

theorem split {order : List String} (ordered : table.Ordered order) {name : String}
    (member : name ∈ order) :
    ∃ before later, order = before ++ name :: later ∧ table.Ordered (name :: later) := by
  induction order with
  | nil => exact absurd member List.not_mem_nil
  | cons first rest ih =>
      rcases List.mem_cons.mp member with rfl | other
      · exact ⟨[], rest, rfl, ordered⟩
      · obtain ⟨before, later, rfl, laterOrdered⟩ := ih ordered.2.2 other
        exact ⟨first :: before, later, rfl, laterOrdered⟩

end Ordered

/-! ## The search for an order -/

/-- An order that the search has built while it stands at the end of a path: no name of the path
is in it yet. -/
structure Built (table : Table) (path order : List String) : Prop where
  ordered : table.Ordered order
  apart : ∀ name ∈ path, name ∉ order

theorem built_foldlM {path : List String}
    {put : List String → String → Except Fault (List String)}
    (puts : ∀ order target result, table.Built path order → put order target = .ok result →
      table.Built path result ∧ order ⊆ result ∧ (table.isSink target = true ∨ target ∈ result))
    {targets order result : List String} (built : table.Built path order)
    (folded : targets.foldlM put order = .ok result) :
    table.Built path result ∧ order ⊆ result ∧
      ∀ target ∈ targets, table.isSink target = true ∨ target ∈ result := by
  induction targets generalizing order with
  | nil =>
      obtain rfl := Except.ok.inj folded
      exact ⟨built, List.Subset.refl _, fun _ member => absurd member List.not_mem_nil⟩
  | cons target targets ih =>
      rw [List.foldlM_cons] at folded
      obtain ⟨middle, first, folded⟩ := Outcome.bind_ok folded
      obtain ⟨middleBuilt, kept, placed⟩ := puts order target middle built first
      obtain ⟨resultBuilt, keptLater, placedLater⟩ := ih middleBuilt folded
      refine ⟨resultBuilt, List.Subset.trans kept keptLater, ?_⟩
      intro other member
      rcases List.mem_cons.mp member with rfl | later
      · exact placed.imp_right fun inMiddle => keptLater inMiddle
      · exact placedLater other later

theorem successors_ok {name : String} {successors : List String}
    (ok : table.successors name = .ok successors) :
    ∃ workflow, table.find? name = some workflow ∧
      ∀ target, target ∈ successors ↔ target ∈ workflow.targets := by
  simp only [Table.successors, Table.workflow] at ok
  cases found : table.find? name with
  | none => simp [found, Except.map] at ok
  | some workflow =>
      simp only [found, Except.map, Except.ok.injEq] at ok
      refine ⟨workflow, rfl, fun target => ?_⟩
      rw [← ok, Names.mem_distinct]
      simp

theorem built_put {path order result : List String} {target : String} {fault : Fault}
    {deeper : Except Fault (List String)} (built : table.Built path order)
    (put : (if table.isSink target ∨ target ∈ order then .ok order
      else if target ∈ path then .error fault else deeper) = .ok result)
    (goesDeeper : table.Built (path ++ [target]) order → target ∉ path → deeper = .ok result →
      table.Built path result ∧ order ⊆ result ∧ result.head? = some target) :
    table.Built path result ∧ order ⊆ result ∧
      (table.isSink target = true ∨ target ∈ result) := by
  split at put
  · rename_i settled
    obtain rfl := Except.ok.inj put
    exact ⟨built, List.Subset.refl _, settled⟩
  · rename_i unsettled
    split at put
    · contradiction
    · rename_i offPath
      have builtToo : table.Built (path ++ [target]) order := by
        refine ⟨built.ordered, fun other member => ?_⟩
        rcases List.mem_append.mp member with onPath | isTarget
        · exact built.apart other onPath
        · obtain rfl := List.mem_singleton.mp isTarget
          exact fun inOrder => unsettled (.inr inOrder)
      obtain ⟨resultBuilt, kept, first⟩ := goesDeeper builtToo offPath put
      exact ⟨resultBuilt, kept, .inr (List.mem_of_head? first)⟩

/-- The search puts a name in front of an order and keeps it an order. -/
theorem built_orderFrom {depth : Nat} {path : List String} {name : String}
    {order result : List String} (built : table.Built (path ++ [name]) order)
    (fresh : name ∉ path) (searched : table.orderFrom depth path name order = .ok result) :
    table.Built path result ∧ order ⊆ result ∧ result.head? = some name := by
  induction depth generalizing path name order result with
  | zero => contradiction
  | succ depth ih =>
      rw [orderFrom] at searched
      obtain ⟨successors, isSuccessors, searched⟩ := Outcome.bind_ok searched
      obtain ⟨later, folded, searched⟩ := Outcome.bind_ok searched
      obtain rfl := Except.ok.inj searched
      obtain ⟨workflow, found, sameTargets⟩ := successors_ok isSuccessors
      obtain ⟨laterBuilt, kept, placed⟩ :=
        built_foldlM (fun _ _ _ built put => built_put built put ih) built folded
      -- The targets were searched on the path that ends with the name, so it is not among them.
      have nameFresh : name ∉ later :=
        laterBuilt.apart name (List.mem_append_right path (List.mem_singleton_self name))
      refine ⟨⟨⟨nameFresh, ⟨workflow, found, ?_⟩, laterBuilt.ordered⟩, ?_⟩,
        fun other member => List.mem_cons_of_mem _ (kept member), rfl⟩
      · exact fun target member => placed target ((sameTargets target).mpr member)
      · intro other onPath inOrder
        rcases List.mem_cons.mp inOrder with rfl | inLater
        · exact fresh onPath
        · exact laterBuilt.apart other (List.mem_append_left [name] onPath) inLater

/-- A search that succeeds gives an order that starts with the entry, or nothing at a sink. -/
theorem ordered_order {entry : String} {order : List String}
    (searched : table.order entry = .ok order) :
    table.Ordered order ∧ order.head? = if table.isSink entry then none else some entry := by
  rw [Table.order] at searched
  split at searched
  · rename_i atSink
    obtain rfl := Except.ok.inj searched
    exact ⟨trivial, (if_pos atSink).symm⟩
  · rename_i notSink
    have nothing : table.Built ([] ++ [entry]) [] :=
      ⟨trivial, fun _ _ => List.not_mem_nil⟩
    obtain ⟨built, _, first⟩ := built_orderFrom nothing List.not_mem_nil searched
    exact ⟨built.ordered, first.trans (if_neg notSink).symm⟩

/-! ## Walking forward in an order -/

/-- Everything that can be met from a name on stands in an order, which is apart from the path to
the name and shorter than the depth. -/
structure Ahead (table : Table) (path order : List String) (depth : Nat) (name : String) :
    Prop where
  built : table.Built path order
  short : order.length < depth
  here : table.isSink name = true ∨ name ∈ order

namespace Ahead

variable {path order : List String} {depth : Nat} {name : String}

/-- At a sink the walk ends; at a workflow every target stands further ahead. -/
theorem arrive (ahead : table.Ahead path order (depth + 1) name) (detectCycles : Bool) :
    (table.isSink name = true ∧ table.arrive detectCycles path name = .ok none) ∨
    ∃ workflow later, table.isSink name = false ∧
      table.arrive detectCycles path name = .ok (some workflow) ∧
      (name :: later).Sublist order ∧
      ∀ target ∈ workflow.targets, table.Ahead (path ++ [name]) later depth target := by
  cases atSink : table.isSink name with
  | true => exact .inl ⟨rfl, by simp only [Table.arrive, atSink, if_true]⟩
  | false =>
      right
      have inOrder : name ∈ order := ahead.here.resolve_left (by simp [atSink])
      obtain ⟨before, later, rfl, fresh, ⟨workflow, found, targets⟩, laterOrdered⟩ :=
        ahead.built.ordered.split inOrder
      have offPath : name ∉ path := fun onPath => ahead.built.apart name onPath inOrder
      refine ⟨workflow, later, rfl, ?_, List.sublist_append_right before _, ?_⟩
      · simp only [Table.arrive, atSink, offPath, Table.workflow, found, Bool.false_eq_true,
          and_false, if_false, Except.map]
      · intro target member
        refine ⟨⟨laterOrdered, ?_⟩, ?_, targets target member⟩
        · intro other onPath inLater
          rcases List.mem_append.mp onPath with old | isName
          · exact ahead.built.apart other old
              (List.mem_append_right before (List.mem_cons_of_mem name inLater))
          · obtain rfl := List.mem_singleton.mp isName
            exact fresh inLater
        · have short := ahead.short
          simp only [List.length_append, List.length_cons] at short
          omega

theorem ofOrder {entry : String} (searched : table.order entry = .ok order) :
    table.Ahead [] order table.depth entry := by
  obtain ⟨ordered, first⟩ := ordered_order searched
  refine ⟨⟨ordered, fun _ member => absurd member List.not_mem_nil⟩, ordered.length_lt_depth, ?_⟩
  split at first
  · rename_i atSink
    exact .inl atSink
  · exact .inr (List.mem_of_head? first)

/-- A walk ahead ends at a sink, and the order has the names that it passes, one after another. -/
theorem walkFrom (ahead : table.Ahead path order depth name) (part : Part) :
    ∃ verdict passed, table.walkFrom detectCycles part depth path name = .ok verdict ∧
      verdict.path = path ++ passed ∧ passed.Sublist order ∧
      passed.head? = if table.isSink name then none else some name := by
  induction depth generalizing path order name with
  | zero => exact absurd ahead.short (Nat.not_lt_zero _)
  | succ depth ih =>
      rcases ahead.arrive detectCycles with
        ⟨atSink, arrived⟩ | ⟨workflow, later, notSink, arrived, sublist, next⟩
      · rw [walkFrom_of_arrive_none arrived]
        exact ⟨_, [], rfl, (List.append_nil path).symm, List.nil_sublist _, (if_pos atSink).symm⟩
      · obtain ⟨verdict, passed, walked, samePath, passedLater, _⟩ :=
          ih (next _ (workflow.route_mem_targets part))
        rw [walkFrom_of_arrive_some arrived]
        refine ⟨verdict, name :: passed, walked, ?_, (passedLater.cons_cons name).trans sublist, ?_⟩
        · rw [samePath, List.append_assoc, List.singleton_append]
        · rw [notSink]
          rfl

end Ahead

end PartSorting.Table
