import Mathlib.Data.List.TakeWhile
import PartSorting.Proofs.Table.Reach

/-! # The search for an order as a loop

The loop keeps a stack with the names on its path, each with those of its successors that are still
to be looked at.  A turn goes on to the first of them that needs it, or it is done with the last
name of the path.  Names enter the path once and leave it once, so the loop ends after at most two
turns for each workflow, and its outcome is that of the search by recursion.

`Sound` says what every turn keeps: the path is a chain of successors from the entry, and all that
is on it or done with can be reached and is met for the first time. -/

set_option autoImplicit false

namespace PartSorting

structure Frame where
  name : String
  pending : List String

/-- The frames of the path, the last name first; the path; the names that are done with; and the
same names in the order in which they were finished. -/
structure Search where
  stack : List Frame
  onPath : List String
  done : List String
  finished : List String

namespace Search

def settled (table : Table) (search : Search) (target : String) : Bool :=
  table.isSink target || decide (target ∈ search.done)

/-- The search goes on to the first pending successor of the top frame that is not settled.  If
there is none, it is done with the name of the frame. -/
def turn (table : Table) (search : Search) (top : Frame) (below : List Frame) :
    Except Fault Search :=
  match top.pending.dropWhile (search.settled table) with
  | [] =>
    .ok ⟨below, search.onPath.dropLast, top.name :: search.done, search.finished ++ [top.name]⟩
  | target :: pending =>
    if target ∈ search.onPath then
      .error (.cyclicWorkflow (search.onPath.dropWhile (· ≠ target) ++ [target]))
    else
      (table.successors target).map fun successors =>
        ⟨⟨target, successors⟩ :: ⟨top.name, pending⟩ :: below, search.onPath ++ [target],
          search.done, search.finished⟩

def run (table : Table) : Nat → Search → Option (Except Fault (List String))
  | 0, search =>
    match search.stack with
    | [] => some (.ok search.finished.reverse)
    | _ :: _ => none
  | turns + 1, search =>
    match search.stack with
    | [] => some (.ok search.finished.reverse)
    | top :: below =>
      match search.turn table top below with
      | .error fault => some (.error fault)
      | .ok next => run table turns next

def start (entry : String) (successors : List String) : Search :=
  ⟨[⟨entry, successors⟩], [entry], [], []⟩

end Search

/-- The order found by the loop, unless it needs more turns than are given. -/
def Table.orderWithin? (table : Table) (turns : Nat) (entry : String) :
    Option (Except Fault (List String)) :=
  if table.isSink entry then
    some (.ok [])
  else
    match table.successors entry with
    | .error fault => some (.error fault)
    | .ok successors => (Search.start entry successors).run table turns

namespace Search

variable {table : Table} {search next : Search} {top : Frame} {below : List Frame}

theorem settled_iff {target : String} :
    search.settled table target = true ↔ table.isSink target = true ∨ target ∈ search.done := by
  simp [settled]

theorem run_of_nil (empty : search.stack = []) (turns : Nat) :
    search.run table turns = some (.ok search.finished.reverse) := by
  cases turns <;> simp only [run, empty]

theorem run_succ_of_ok (busy : search.stack = top :: below) (turns : Nat)
    (turned : search.turn table top below = .ok next) :
    search.run table (turns + 1) = next.run table turns := by
  simp only [run, busy, turned]

theorem run_succ_of_error (busy : search.stack = top :: below) (turns : Nat) {fault : Fault}
    (failed : search.turn table top below = .error fault) :
    search.run table (turns + 1) = some (.error fault) := by
  simp only [run, busy, failed]

theorem run_add {turns : Nat} {outcome : Except Fault (List String)}
    (ended : search.run table turns = some outcome) (extra : Nat) :
    search.run table (turns + extra) = some outcome := by
  induction turns generalizing search with
  | zero =>
      cases stack : search.stack with
      | nil =>
          rw [run_of_nil stack] at ended ⊢
          exact ended
      | cons top below =>
          simp only [run, stack] at ended
          contradiction
  | succ turns ih =>
      rw [Nat.add_right_comm]
      cases stack : search.stack with
      | nil =>
          rw [run_of_nil stack] at ended ⊢
          exact ended
      | cons top below =>
          cases turned : search.turn table top below with
          | error fault =>
              rw [run_succ_of_error stack _ turned] at ended ⊢
              exact ended
          | ok next =>
              rw [run_succ_of_ok stack _ turned] at ended ⊢
              exact ih ended

/-! ## The loop does what the recursion does -/

def standing (stack : List Frame) (path order : List String) : Search :=
  ⟨stack, path, order, order.reverse⟩

/-- The outcome of the loop when a part of the search has ended in an order or a fault. -/
def resume (table : Table) (stack : List Frame) (path : List String) (turns : Nat) :
    Except Fault (List String) → Option (Except Fault (List String))
  | .error fault => some (.error fault)
  | .ok order => (standing stack path order).run table turns

end Search

namespace Table

def put (table : Table) (depth : Nat) (path order : List String) (target : String) :
    Except Fault (List String) :=
  if table.isSink target ∨ target ∈ order then
    .ok order
  else if target ∈ path then
    .error (.cyclicWorkflow (path.dropWhile (· ≠ target) ++ [target]))
  else
    table.orderFrom depth path target order

theorem orderFrom_succ (table : Table) (depth : Nat) (path : List String) (name : String)
    (order : List String) :
    table.orderFrom (depth + 1) path name order =
      table.successors name >>= fun successors =>
        (successors.foldlM (table.put depth (path ++ [name])) order).map (name :: ·) := by
  rw [orderFrom]
  cases table.successors name with
  | error fault => rfl
  | ok successors =>
      show (successors.foldlM (table.put depth (path ++ [name])) order >>= fun order =>
        pure (name :: order)) =
          (successors.foldlM (table.put depth (path ++ [name])) order).map (name :: ·)
      cases successors.foldlM (table.put depth (path ++ [name])) order with
      | error fault => rfl
      | ok order => rfl

end Table

namespace Search

variable {table : Table} {depth : Nat} {path : List String}

theorem run_standing_settled {name target : String} {pending order : List String}
    {below : List Frame} (done : table.isSink target = true ∨ target ∈ order) (turns : Nat) :
    (standing (⟨name, target :: pending⟩ :: below) path order).run table turns =
      (standing (⟨name, pending⟩ :: below) path order).run table turns := by
  cases turns with
  | zero => rfl
  | succ turns =>
      have passed : (standing (⟨name, target :: pending⟩ :: below) path order).turn table
            ⟨name, target :: pending⟩ below =
          (standing (⟨name, pending⟩ :: below) path order).turn table ⟨name, pending⟩ below := by
        have isSettled : (standing (⟨name, target :: pending⟩ :: below) path order).settled table
            target = true := settled_iff.mpr done
        simp only [turn, List.dropWhile_cons_of_pos isSettled]
        rfl
      simp only [run, standing] at passed ⊢
      rw [passed]

/-- How the loop treats a target that needs to be looked at, if it is not on the path: as the
recursive search does, before it goes on with the other targets. -/
def Descends (table : Table) (depth : Nat) (path : List String) : Prop :=
  ∀ name target pending below order, ¬(table.isSink target = true ∨ target ∈ order) →
    target ∉ path → ∃ turns, ∀ more,
      (standing (⟨name, target :: pending⟩ :: below) path order).run table (turns + more) =
        resume table (⟨name, pending⟩ :: below) path more (table.orderFrom depth path target order)

theorem turn_standing_pending (path : List String) (name : String) (pending : List String)
    (below : List Frame) {target : String} {order : List String}
    (needed : ¬(table.isSink target = true ∨ target ∈ order)) :
    (standing (⟨name, target :: pending⟩ :: below) path order).turn table
        ⟨name, target :: pending⟩ below =
      if target ∈ path then .error (.cyclicWorkflow (path.dropWhile (· ≠ target) ++ [target]))
      else (table.successors target).map fun successors =>
        standing (⟨target, successors⟩ :: ⟨name, pending⟩ :: below) (path ++ [target]) order := by
  have unsettled : ¬(standing (⟨name, target :: pending⟩ :: below) path order).settled table
      target = true := fun isSettled => needed (settled_iff.mp isSettled)
  simp only [turn, List.dropWhile_cons_of_neg unsettled]
  rfl

/-- The targets of a frame are looked at one after another, then the search is done with it. -/
theorem run_standing_frame {name : String} (descends : Descends table depth (path ++ [name]))
    (pending : List String) (below : List Frame) (order : List String) :
    ∃ turns, ∀ more,
      (standing (⟨name, pending⟩ :: below) (path ++ [name]) order).run table (turns + more) =
        resume table below path more
          ((pending.foldlM (table.put depth (path ++ [name])) order).map (name :: ·)) := by
  induction pending generalizing order with
  | nil =>
      refine ⟨1, fun more => ?_⟩
      have popped : (standing (⟨name, []⟩ :: below) (path ++ [name]) order).turn table ⟨name, []⟩
          below = .ok (standing below path (name :: order)) := by
        simp only [turn, standing, List.dropWhile_nil, List.dropLast_concat, List.reverse_cons]
      rw [Nat.add_comm, run_succ_of_ok rfl more popped]
      rfl
  | cons target pending ih =>
      rw [List.foldlM_cons]
      by_cases settled : table.isSink target = true ∨ target ∈ order
      · obtain ⟨turns, continued⟩ := ih order
        refine ⟨turns, fun more => ?_⟩
        rw [run_standing_settled settled, continued more, Table.put, if_pos settled]
        rfl
      · by_cases again : target ∈ path ++ [name]
        · refine ⟨1, fun more => ?_⟩
          have failed := turn_standing_pending (path ++ [name]) name pending below settled
          rw [if_pos again] at failed
          rw [Nat.add_comm, run_succ_of_error rfl more failed, Table.put, if_neg settled,
            if_pos again]
          rfl
        · obtain ⟨turns, deeper⟩ := descends name target pending below order settled again
          rw [Table.put, if_neg settled, if_neg again]
          cases found : table.orderFrom depth (path ++ [name]) target order with
          | error fault =>
              rw [found] at deeper
              exact ⟨turns, deeper⟩
          | ok middle =>
              rw [found] at deeper
              obtain ⟨later, continued⟩ := ih middle
              refine ⟨turns + later, fun more => ?_⟩
              rw [Nat.add_assoc, deeper]
              exact continued more

/-- As long as the path is a trail, the depth of the recursion suffices. -/
theorem descends_of_trail (trail : table.Trail path) (enough : table.size < depth + path.length) :
    Descends table depth path := by
  induction depth generalizing path with
  | zero =>
      have bounded := trail.length_le
      omega
  | succ depth ih =>
      intro name target pending below order unsettled fresh
      have turned := turn_standing_pending path name pending below unsettled
      rw [if_neg fresh] at turned
      rw [Table.orderFrom_succ]
      rcases table.successors_cases target with ⟨workflow, found, ok⟩ | ⟨_, failed⟩
      · rw [ok] at turned ⊢
        have longer := trail.concat (Table.mem_names_of_find? found) fresh
        have descends : Descends table depth (path ++ [target]) := by
          apply ih longer
          rw [List.length_append, List.length_singleton]
          omega
        obtain ⟨turns, continued⟩ := run_standing_frame descends
          (Names.distinct [] workflow.targets) (⟨name, pending⟩ :: below) order
        refine ⟨turns + 1, fun more => ?_⟩
        rw [Nat.add_right_comm, run_succ_of_ok rfl _ turned]
        exact continued more
      · rw [failed] at turned ⊢
        refine ⟨1, fun more => ?_⟩
        rw [Nat.add_comm, run_succ_of_error rfl more turned]
        rfl

/-! ## What every turn keeps -/

/-- A search on its way from an entry: the path is a chain of successors that matches the stack,
its names and those that are done with are distinct workflows that can be reached, and what is
pending are successors. -/
structure Sound (table : Table) (entry : String) (search : Search) : Prop where
  path : search.onPath = (search.stack.map Frame.name).reverse
  finished : search.finished = search.done.reverse
  trail : table.Trail (search.onPath ++ search.done)
  chain : search.onPath.IsChain table.Leads
  pending : ∀ frame ∈ search.stack, ∀ target ∈ frame.pending, table.Leads frame.name target
  reached : ∀ name ∈ search.onPath ++ search.done, table.CanReach entry name

/-- A bound on the number of turns: two for each name that has not been met, and one for each name
on the path. -/
def room (table : Table) (search : Search) : Nat :=
  2 * (table.size - (search.onPath ++ search.done).length) + search.stack.length

variable {entry : String} {search next : Search} {top : Frame} {below : List Frame}

theorem first_pending {target : String} {pending : List String}
    (left : top.pending.dropWhile (search.settled table) = target :: pending) :
    (target :: pending) <:+ top.pending ∧ table.isSink target = false ∧ target ∉ search.done := by
  have isSuffix := List.dropWhile_suffix (search.settled table) (l := top.pending)
  have unsettled := List.head?_dropWhile_not (search.settled table) top.pending
  rw [left] at isSuffix unsettled
  have unsettled : search.settled table target = false := unsettled
  simp only [settled, Bool.or_eq_false_iff, decide_eq_false_iff_not] at unsettled
  exact ⟨isSuffix, unsettled⟩

theorem turn_ok_cases (turned : search.turn table top below = .ok next) :
    next = ⟨below, search.onPath.dropLast, top.name :: search.done,
      search.finished ++ [top.name]⟩ ∨
    ∃ target pending successors, (target :: pending) <:+ top.pending ∧
      target ∉ search.onPath ∧ target ∉ search.done ∧
      table.successors target = .ok successors ∧
      next = ⟨⟨target, successors⟩ :: ⟨top.name, pending⟩ :: below, search.onPath ++ [target],
        search.done, search.finished⟩ := by
  simp only [turn] at turned
  split at turned
  · exact .inl (Except.ok.inj turned).symm
  · rename_i target pending left
    obtain ⟨isSuffix, _, notDone⟩ := first_pending left
    split at turned
    · contradiction
    · rename_i fresh
      cases found : table.successors target with
      | error fault => simp [found, Except.map] at turned
      | ok successors =>
          simp only [found, Except.map, Except.ok.injEq] at turned
          exact .inr ⟨target, pending, successors, isSuffix, fresh, notDone, found, turned.symm⟩

theorem turn_error_cases {fault : Fault} (failed : search.turn table top below = .error fault) :
    ∃ target ∈ top.pending, table.isSink target = false ∧
      ((target ∈ search.onPath ∧
          fault = .cyclicWorkflow (search.onPath.dropWhile (· ≠ target) ++ [target])) ∨
        (target ∉ table.names ∧ fault = .unknownWorkflow target)) := by
  simp only [turn] at failed
  split at failed
  · contradiction
  · rename_i target pending left
    obtain ⟨isSuffix, notSink, _⟩ := first_pending left
    refine ⟨target, isSuffix.subset List.mem_cons_self, notSink, ?_⟩
    split at failed
    · rename_i again
      exact .inl ⟨again, (Except.error.inj failed).symm⟩
    · rcases table.successors_cases target with ⟨_, _, ok⟩ | ⟨unknown, isError⟩
      · simp [ok, Except.map] at failed
      · simp only [isError, Except.map, Except.error.injEq] at failed
        exact .inr ⟨unknown, failed.symm⟩

namespace Sound

theorem start {workflow : Workflow} (found : table.find? entry = some workflow) :
    (start entry (Names.distinct [] workflow.targets)).Sound table entry := by
  refine ⟨rfl, rfl, ?_, List.isChain_singleton entry, ?_, ?_⟩
  · exact (Table.Trail.nil table).concat (Table.mem_names_of_find? found) List.not_mem_nil
  · intro frame isFirst target member
    obtain rfl := List.mem_singleton.mp isFirst
    exact ⟨_, Table.successors_of_find? found, member⟩
  · intro name isEntry
    obtain rfl := List.mem_singleton.mp isEntry
    exact .refl

theorem onPath_eq (sound : search.Sound table entry) (busy : search.stack = top :: below) :
    search.onPath = (below.map Frame.name).reverse ++ [top.name] := by
  rw [sound.path, busy, List.map_cons, List.reverse_cons]

theorem top_mem (sound : search.Sound table entry) (busy : search.stack = top :: below) :
    top.name ∈ search.onPath := by
  rw [sound.onPath_eq busy]
  exact List.mem_append_right _ (List.mem_singleton_self _)

theorem chain_concat (sound : search.Sound table entry) (busy : search.stack = top :: below)
    {target : String} (leads : table.Leads top.name target) :
    (search.onPath ++ [target]).IsChain table.Leads := by
  apply sound.chain.append (List.isChain_singleton target)
  intro last isLast first isFirst
  rw [sound.onPath_eq busy, List.getLast?_concat, Option.mem_some_iff] at isLast
  rw [List.head?_cons, Option.mem_some_iff] at isFirst
  exact isLast ▸ isFirst ▸ leads

theorem pop (sound : search.Sound table entry) (busy : search.stack = top :: below) :
    Sound table entry ⟨below, search.onPath.dropLast, top.name :: search.done,
      search.finished ++ [top.name]⟩ := by
  have path := sound.onPath_eq busy
  have shorter : search.onPath.dropLast = (below.map Frame.name).reverse := by
    rw [path, List.dropLast_concat]
  have same : search.onPath.dropLast ++ top.name :: search.done =
      search.onPath ++ search.done := by
    rw [shorter, path, List.append_assoc, List.singleton_append]
  have chain := sound.chain
  rw [path] at chain
  refine ⟨shorter, ?_, ?_, shorter ▸ chain.left_of_append, ?_, ?_⟩
  · rw [sound.finished, List.reverse_cons]
  · rw [same]
    exact sound.trail
  · intro frame member
    exact sound.pending frame (busy ▸ List.mem_cons_of_mem top member)
  · rw [same]
    exact sound.reached

theorem push (sound : search.Sound table entry) (busy : search.stack = top :: below)
    {target : String} {pending successors : List String}
    (isSuffix : (target :: pending) <:+ top.pending) (offPath : target ∉ search.onPath)
    (notDone : target ∉ search.done) (ok : table.successors target = .ok successors) :
    Sound table entry ⟨⟨target, successors⟩ :: ⟨top.name, pending⟩ :: below,
      search.onPath ++ [target], search.done, search.finished⟩ := by
  have topPending := sound.pending top (busy ▸ List.mem_cons_self)
  have leads := topPending target (isSuffix.subset List.mem_cons_self)
  obtain ⟨workflow, found, _⟩ := Table.successors_ok ok
  refine ⟨?_, sound.finished, ?_, sound.chain_concat busy leads, ?_, ?_⟩
  · rw [sound.onPath_eq busy]
    simp only [List.map_cons, List.reverse_cons]
  · have fresh : target ∉ search.onPath ++ search.done := by
      simp only [List.mem_append, offPath, notDone, or_self, not_false_iff]
    have longer := sound.trail.concat (Table.mem_names_of_find? found) fresh
    rw [List.append_assoc] at longer ⊢
    exact longer.perm (List.perm_append_comm.append_left search.onPath)
  · intro frame member
    rcases List.mem_cons.mp member with rfl | others
    · exact fun other isSuccessor => ⟨successors, ok, isSuccessor⟩
    · rcases List.mem_cons.mp others with rfl | isBelow
      · exact fun other isPending =>
          topPending other (isSuffix.subset (List.mem_cons_of_mem target isPending))
      · exact sound.pending frame (busy ▸ List.mem_cons_of_mem top isBelow)
  · intro name member
    rw [List.append_assoc] at member
    rcases List.mem_append.mp member with onPath | others
    · exact sound.reached name (List.mem_append_left _ onPath)
    · rcases List.mem_cons.mp others with rfl | isDone
      · exact (sound.reached _ (List.mem_append_left _ (sound.top_mem busy))).tail leads
      · exact sound.reached name (List.mem_append_right _ isDone)

/-- Every turn keeps the search sound and takes away some of its room. -/
theorem turn (sound : search.Sound table entry) (busy : search.stack = top :: below)
    (turned : search.turn table top below = .ok next) :
    next.Sound table entry ∧ next.room table < search.room table := by
  rcases turn_ok_cases turned with
    rfl | ⟨target, pending, successors, isSuffix, offPath, notDone, ok, rfl⟩
  · refine ⟨sound.pop busy, ?_⟩
    simp only [room, sound.onPath_eq busy, busy, List.dropLast_concat, List.length_append,
      List.length_cons, List.length_nil]
    omega
  · have kept := sound.push busy isSuffix offPath notDone ok
    refine ⟨kept, ?_⟩
    have bounded := kept.trail.length_le
    simp only [room, busy, List.length_append, List.length_cons, List.length_nil] at bounded ⊢
    omega

theorem exists_run {turns : Nat} (sound : search.Sound table entry)
    (enough : search.room table ≤ turns) : ∃ outcome, search.run table turns = some outcome := by
  induction turns generalizing search with
  | zero =>
      have empty : search.stack = [] := by
        apply List.eq_nil_of_length_eq_zero
        simp only [room] at enough
        omega
      exact ⟨_, run_of_nil empty 0⟩
  | succ turns ih =>
      cases busy : search.stack with
      | nil => exact ⟨_, run_of_nil busy _⟩
      | cons top below =>
          cases turned : search.turn table top below with
          | error fault => exact ⟨_, run_succ_of_error busy _ turned⟩
          | ok next =>
              obtain ⟨kept, smaller⟩ := sound.turn busy turned
              rw [run_succ_of_ok busy _ turned]
              exact ih kept (by omega)

/-- A loop that ends has come to a sound search where the stack is empty or the turn fails. -/
theorem run {turns : Nat} {outcome : Except Fault (List String)}
    (sound : search.Sound table entry) (ended : search.run table turns = some outcome) :
    ∃ last, Sound table entry last ∧
      ((last.stack = [] ∧ outcome = .ok last.done) ∨
        ∃ top below fault, last.stack = top :: below ∧ last.turn table top below = .error fault ∧
          outcome = .error fault) := by
  induction turns generalizing search with
  | zero =>
      cases busy : search.stack with
      | nil =>
          rw [run_of_nil busy, sound.finished, List.reverse_reverse] at ended
          exact ⟨search, sound, .inl ⟨busy, (Option.some.inj ended).symm⟩⟩
      | cons top below =>
          simp only [Search.run, busy] at ended
          contradiction
  | succ turns ih =>
      cases busy : search.stack with
      | nil =>
          rw [run_of_nil busy, sound.finished, List.reverse_reverse] at ended
          exact ⟨search, sound, .inl ⟨busy, (Option.some.inj ended).symm⟩⟩
      | cons top below =>
          cases turned : search.turn table top below with
          | error fault =>
              rw [run_succ_of_error busy _ turned] at ended
              exact ⟨search, sound, .inr ⟨top, below, fault, busy, turned,
                (Option.some.inj ended).symm⟩⟩
          | ok next =>
              rw [run_succ_of_ok busy _ turned] at ended
              exact ih (sound.turn busy turned).1 ended

/-- A turn that fails has met a cycle on the path, or an unknown successor of its last name. -/
theorem turn_error (sound : search.Sound table entry) (busy : search.stack = top :: below)
    {fault : Fault} (failed : search.turn table top below = .error fault) :
    (∃ path, fault = .cyclicWorkflow path ∧ table.ReachedCycle entry path) ∨
      ∃ name, fault = .unknownWorkflow name ∧ table.Dangles entry name := by
  obtain ⟨target, isPending, notSink, cause⟩ := turn_error_cases failed
  have leads := sound.pending top (busy ▸ List.mem_cons_self) target isPending
  rcases cause with ⟨again, rfl⟩ | ⟨unknown, rfl⟩
  · refine .inl ⟨_, rfl, ?_⟩
    have isSuffix := List.dropWhile_suffix (· ≠ target) (l := search.onPath)
    have found := List.head?_dropWhile_not (· ≠ target) search.onPath
    cases left : search.onPath.dropWhile (· ≠ target) with
    | nil =>
        have elsewhere := List.dropWhile_eq_nil_iff.mp left target again
        simp at elsewhere
    | cons first others =>
        rw [left] at isSuffix found
        obtain rfl : first = target := by simpa using found
        have reached := sound.reached _ (List.mem_append_left _ again)
        have trail := sound.trail.sublist
          (isSuffix.sublist.trans (List.sublist_append_left search.onPath search.done))
        -- The names of the path before the target are left away from the chain.
        have chain := sound.chain_concat busy leads
        obtain ⟨before, split⟩ := isSuffix
        rw [← split, List.append_assoc] at chain
        exact ⟨_, others, rfl, trail, chain.right_of_append, reached⟩
  · have reached := sound.reached _ (List.mem_append_left _ (sound.top_mem busy))
    exact .inr ⟨target, rfl, notSink, unknown, .inr ⟨top.name, reached, leads⟩⟩

end Sound

end Search

namespace Table

variable {table : Table} {entry : String}

theorem order_of_unknown (notSink : table.isSink entry = false) (unknown : entry ∉ table.names) :
    table.order entry = .error (.unknownWorkflow entry) := by
  have failed : table.successors entry = .error (.unknownWorkflow entry) := by
    simp only [successors, Table.workflow, find?_eq_none_iff.mpr unknown, Except.map]
  rw [order, notSink, if_neg Bool.false_ne_true, depth, orderFrom_succ, failed]
  rfl

theorem exists_run_start {workflow : Workflow} (found : table.find? entry = some workflow) :
    ∃ turns, (Search.start entry (Names.distinct [] workflow.targets)).run table turns =
      some (table.order entry) := by
  have isName := mem_names_of_find? found
  have trail := (Trail.nil table).concat isName List.not_mem_nil
  have descends : Search.Descends table table.size ([] ++ [entry]) :=
    Search.descends_of_trail trail (Nat.lt_succ_self table.size)
  obtain ⟨turns, continued⟩ :=
    Search.run_standing_frame descends (Names.distinct [] workflow.targets) [] []
  refine ⟨turns, ?_⟩
  have searched : table.order entry =
      ((Names.distinct [] workflow.targets).foldlM (table.put table.size ([] ++ [entry])) []).map
        (entry :: ·) := by
    rw [order, isSink_of_mem_names isName, if_neg Bool.false_ne_true, depth, orderFrom_succ,
      successors_of_find? found]
    rfl
  have ended := continued 0
  rw [← searched, Nat.add_zero] at ended
  refine ended.trans ?_
  cases table.order entry with
  | error fault => rfl
  | ok order =>
      rw [Search.resume, Search.run_of_nil rfl, Search.standing, List.reverse_reverse]

/-- The loop ends within two turns for each workflow, with the outcome of the recursive search. -/
theorem orderWithin?_eq (table : Table) (entry : String) :
    table.orderWithin? (2 * table.size) entry = some (table.order entry) := by
  cases atSink : table.isSink entry with
  | true => rw [orderWithin?, order, atSink, if_pos rfl, if_pos rfl]
  | false =>
      rw [orderWithin?, atSink, if_neg Bool.false_ne_true]
      rcases table.successors_cases entry with ⟨workflow, found, ok⟩ | ⟨unknown, failed⟩
      · rw [ok]
        obtain ⟨turns, ended⟩ := exists_run_start found
        have sound := Search.Sound.start found
        have bounded := sound.trail.length_le
        have enough : Search.room table (Search.start entry (Names.distinct [] workflow.targets)) ≤
            2 * table.size := by
          simp only [Search.room, Search.start, List.append_nil, List.length_cons,
            List.length_nil] at bounded ⊢
          omega
        obtain ⟨outcome, finished⟩ := sound.exists_run enough
        rw [← Search.run_add ended (2 * table.size), Nat.add_comm,
          Search.run_add finished turns]
        exact finished
      · rw [failed, order_of_unknown atSink unknown]

theorem canReach_of_mem_order {order : List String} (searched : table.order entry = .ok order)
    {name : String} (member : name ∈ order) : table.CanReach entry name := by
  cases found : table.find? entry with
  | none =>
      cases atSink : table.isSink entry with
      | true =>
          rw [Table.order, atSink, if_pos rfl] at searched
          obtain rfl := Except.ok.inj searched
          exact absurd member List.not_mem_nil
      | false =>
          rw [order_of_unknown atSink (find?_eq_none_iff.mp found)] at searched
          contradiction
  | some workflow =>
      obtain ⟨turns, ended⟩ := exists_run_start found
      obtain ⟨last, sound, ⟨_, isDone⟩ | ⟨_, _, fault, _, _, isError⟩⟩ :=
        (Search.Sound.start found).run ended
      · rw [searched] at isDone
        obtain rfl := Except.ok.inj isDone
        exact sound.reached name (List.mem_append_right _ member)
      · rw [searched] at isError
        contradiction

theorem order_error_cases {fault : Fault} (failed : table.order entry = .error fault) :
    (∃ path, fault = .cyclicWorkflow path ∧ table.ReachedCycle entry path) ∨
      ∃ name, fault = .unknownWorkflow name ∧ table.Dangles entry name := by
  cases found : table.find? entry with
  | none =>
      have unknown := find?_eq_none_iff.mp found
      cases atSink : table.isSink entry with
      | true =>
          rw [order, atSink, if_pos rfl] at failed
          contradiction
      | false =>
          rw [order_of_unknown atSink unknown] at failed
          exact .inr ⟨entry, (Except.error.inj failed).symm, atSink, unknown, .inl rfl⟩
  | some workflow =>
      obtain ⟨turns, ended⟩ := exists_run_start found
      obtain ⟨last, sound, ⟨_, isOk⟩ | ⟨top, below, early, busy, turned, isError⟩⟩ :=
        (Search.Sound.start found).run ended
      · rw [failed] at isOk
        contradiction
      · rw [failed] at isError
        obtain rfl := Except.error.inj isError
        exact sound.turn_error busy turned

end Table

end PartSorting
