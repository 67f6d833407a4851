import PartSorting.Proofs.Table.Ranges

/-! # Boxes taken from a list of pending ones in any order

An evaluation keeps the boxes that are still to be looked at in a list.  One turn takes a box out:
at a sink it is added to the report, and at a workflow it is divided and its pieces are put at the
end of the list.  Which box is taken is left open.

When cycles are detected, the path of every pending box is a trail.  A turn replaces a box by at
most as many boxes with longer paths as there are targets, so the list is empty after a number of
turns that can be told from the table. -/

set_option autoImplicit false

namespace PartSorting

structure Worklist where
  pending : List (Transit Box)
  report : RangeReport

/-- Ways to take one pending box out of the list, which leaves the others. -/
abbrev Takes := List (Transit Box) → Transit Box → List (Transit Box) → Prop

namespace Takes

def any : Takes := fun pending item others =>
  ∃ before after, pending = before ++ item :: after ∧ others = before ++ after

def last : Takes := fun pending item others => pending = others ++ [item]

section

variable {pending others : List (Transit Box)} {item : Transit Box}

theorem any_of_last (taken : last pending item others) : any pending item others :=
  ⟨others, [], taken, (List.append_nil others).symm⟩

theorem any.perm (taken : any pending item others) : pending.Perm (item :: others) := by
  obtain ⟨before, after, rfl, rfl⟩ := taken
  exact List.perm_middle

theorem any.mem (taken : any pending item others) : item ∈ pending :=
  taken.perm.mem_iff.mpr List.mem_cons_self

theorem any.mem_of_mem_others (taken : any pending item others) {other : Transit Box}
    (member : other ∈ others) : other ∈ pending :=
  taken.perm.mem_iff.mpr (List.mem_cons_of_mem item member)

end

end Takes

def Transit.onward {Load : Type} (item : Transit Load) (piece : String × Load) : Transit Load :=
  ⟨item.path ++ [item.name], piece.1, piece.2⟩

namespace RangeReport

def blank (start : Int) : RangeReport :=
  ⟨start, 0, 0, [], 0⟩

def deliver (table : Table) (report : RangeReport) (sink : String) (box : Box) : RangeReport :=
  if sink == table.reject then
    { report with rejected := report.rejected + Box.volume box }
  else
    { report with
      accepted := report.accepted + Box.volume box
      boxes := report.boxes ++ [box] }

def visit (report : RangeReport) : RangeReport :=
  { report with visits := report.visits + 1 }

end RangeReport

namespace Table

def handle (table : Table) (config : Config) (report : RangeReport) (item : Transit Box) :
    Except Fault Worklist :=
  match table.arrive config.detectCycles item.path item.name with
  | .error fault => .error fault
  | .ok none => .ok ⟨[], report.deliver table item.name item.load⟩
  | .ok (some workflow) =>
    match (pushPieces config.scale item.name workflow item.load).outcome with
    | .error fault => .error fault
    | .ok pieces => .ok ⟨pieces.map item.onward, report.visit⟩

/-- One turn: a box is taken, and what comes of it is put at the end of the list. -/
inductive Turn (table : Table) (config : Config) (takes : Takes) :
    Worklist → Except Fault Worklist → Prop where
  | next {list : Worklist} {item : Transit Box} {others fresh : List (Transit Box)}
      {report : RangeReport} (taken : takes list.pending item others)
      (ok : table.handle config list.report item = .ok ⟨fresh, report⟩) :
      Turn table config takes list (.ok ⟨others ++ fresh, report⟩)
  | fault {list : Worklist} {item : Transit Box} {others : List (Transit Box)} {fault : Fault}
      (taken : takes list.pending item others)
      (failed : table.handle config list.report item = .error fault) :
      Turn table config takes list (.error fault)

inductive Turns (table : Table) (config : Config) (takes : Takes) :
    Nat → Worklist → Worklist → Prop where
  | none (list : Worklist) : Turns table config takes 0 list list
  | more {n : Nat} {first list next : Worklist} (turns : Turns table config takes n first list)
      (turn : Turn table config takes list (.ok next)) : Turns table config takes (n + 1) first next

/-- Turns are made until only the given boxes are left to be taken, or a turn fails. -/
inductive Settles (table : Table) (config : Config) (takes : Takes) (first : Worklist)
    (left : List (Transit Box)) : Except Fault RangeReport → Prop where
  | ok {n : Nat} {report : RangeReport}
      (turns : Turns table config takes n first ⟨left, report⟩) :
      Settles table config takes first left (.ok report)
  | error {n : Nat} {list : Worklist} {fault : Fault}
      (turns : Turns table config takes n first list)
      (turn : Turn table config takes list (.error fault)) :
      Settles table config takes first left (.error fault)

/-- A complete run: it ends when no box is pending, or when a turn fails. -/
abbrev Run (table : Table) (config : Config) (takes : Takes) (first : Worklist) :
    Except Fault RangeReport → Prop :=
  Settles table config takes first []

def startList (config : Config) (box : Option Box) : Worklist :=
  let start := startBox config box
  { pending := if 0 < Box.volume start then [⟨[], config.entry, start⟩] else []
    report := .blank (Box.volume start) }

variable {table : Table} {config : Config} {takes : Takes}

theorem handle_ok_cases {report : RangeReport} {item : Transit Box} {handled : Worklist}
    (ok : table.handle config report item = .ok handled) :
    (table.arrive config.detectCycles item.path item.name = .ok none ∧
      handled = ⟨[], report.deliver table item.name item.load⟩) ∨
    ∃ workflow pieces,
      table.arrive config.detectCycles item.path item.name = .ok (some workflow) ∧
      (pushPieces config.scale item.name workflow item.load).outcome = .ok pieces ∧
      handled = ⟨pieces.map item.onward, report.visit⟩ := by
  simp only [handle] at ok
  split at ok
  · contradiction
  · rename_i arrived
    exact .inl ⟨arrived, (Except.ok.inj ok).symm⟩
  · rename_i workflow arrived
    split at ok
    · contradiction
    · rename_i pieces divided
      exact .inr ⟨workflow, pieces, arrived, divided, (Except.ok.inj ok).symm⟩

theorem handle_error_cases {report : RangeReport} {item : Transit Box} {fault : Fault}
    (failed : table.handle config report item = .error fault) :
    table.arrive config.detectCycles item.path item.name = .error fault ∨
    ∃ workflow, table.arrive config.detectCycles item.path item.name = .ok (some workflow) ∧
      (pushPieces config.scale item.name workflow item.load).outcome = .error fault := by
  simp only [handle] at failed
  split at failed
  · rename_i early arrived
    obtain rfl := Except.error.inj failed
    exact .inl arrived
  · contradiction
  · rename_i workflow arrived
    split at failed
    · rename_i early divided
      obtain rfl := Except.error.inj failed
      exact .inr ⟨workflow, arrived, divided⟩
    · contradiction

theorem handle_of_none {report : RangeReport} {item : Transit Box}
    (arrived : table.arrive config.detectCycles item.path item.name = .ok none) :
    table.handle config report item = .ok ⟨[], report.deliver table item.name item.load⟩ := by
  simp only [handle, arrived]

theorem handle_of_pieces {report : RangeReport} {item : Transit Box} {workflow : Workflow}
    {pieces : List (String × Box)}
    (arrived : table.arrive config.detectCycles item.path item.name = .ok (some workflow))
    (divided : (pushPieces config.scale item.name workflow item.load).outcome = .ok pieces) :
    table.handle config report item = .ok ⟨pieces.map item.onward, report.visit⟩ := by
  simp only [handle, arrived, divided]

theorem handle_of_undivided {report : RangeReport} {item : Transit Box} {workflow : Workflow}
    {fault : Fault}
    (arrived : table.arrive config.detectCycles item.path item.name = .ok (some workflow))
    (undivided : (pushPieces config.scale item.name workflow item.load).outcome = .error fault) :
    table.handle config report item = .error fault := by
  simp only [handle, arrived, undivided]

theorem handle_of_error {report : RangeReport} {item : Transit Box} {fault : Fault}
    (failed : table.arrive config.detectCycles item.path item.name = .error fault) :
    table.handle config report item = .error fault := by
  simp only [handle, failed]

theorem Turn.forall_pending {holds : Transit Box → Prop} {list next : Worklist}
    (turn : Turn table config .any list (.ok next))
    (kept : ∀ item report handled, holds item →
      table.handle config report item = .ok handled → ∀ fresh ∈ handled.pending, holds fresh)
    (all : ∀ item ∈ list.pending, holds item) : ∀ item ∈ next.pending, holds item := by
  cases turn with
  | next taken ok =>
      intro item member
      rcases List.mem_append.mp member with other | fresh
      · exact all item (taken.mem_of_mem_others other)
      · exact kept _ _ _ (all _ taken.mem) ok item fresh

namespace Turns

theorem trans {m n : Nat} {first middle list : Worklist}
    (turns : Turns table config takes m first middle)
    (later : Turns table config takes n middle list) :
    Turns table config takes (m + n) first list := by
  induction later with
  | none => exact turns
  | more _ turn ih => exact .more (ih turns) turn

theorem settles {n : Nat} {first middle : Worklist} {left : List (Transit Box)}
    {outcome : Except Fault RangeReport} (turns : Turns table config takes n first middle)
    (settled : Settles table config takes middle left outcome) :
    Settles table config takes first left outcome := by
  cases settled with
  | ok later => exact .ok (turns.trans later)
  | error later turn => exact .error (turns.trans later) turn

theorem mono {takesToo : Takes}
    (weaker : ∀ pending item others, takes pending item others → takesToo pending item others)
    {n : Nat} {first list : Worklist} (turns : Turns table config takes n first list) :
    Turns table config takesToo n first list := by
  induction turns with
  | none => exact .none _
  | more _ turn ih =>
      cases turn with
      | next taken ok => exact .more ih (.next (weaker _ _ _ taken) ok)

theorem invariant {n : Nat} {first list : Worklist} {holds : Worklist → Prop}
    (turns : Turns table config takes n first list)
    (kept : ∀ list next, holds list → Turn table config takes list (.ok next) → holds next)
    (start : holds first) : holds list := by
  induction turns with
  | none => exact start
  | more _ turn ih => exact kept _ _ (ih start) turn

end Turns

theorem Settles.mono {takesToo : Takes}
    (weaker : ∀ pending item others, takes pending item others → takesToo pending item others)
    {first : Worklist} {left : List (Transit Box)} {outcome : Except Fault RangeReport}
    (settled : Settles table config takes first left outcome) :
    Settles table config takesToo first left outcome := by
  cases settled with
  | ok turns => exact .ok (turns.mono weaker)
  | error turns turn =>
      cases turn with
      | fault taken failed => exact .error (turns.mono weaker) (.fault (weaker _ _ _ taken) failed)

def OnTrails (table : Table) (list : Worklist) : Prop :=
  ∀ item ∈ list.pending, table.Trail item.path

theorem onTrails_startList (table : Table) (config : Config) (box : Option Box) :
    table.OnTrails (startList config box) := by
  intro item member
  simp only [startList] at member
  split at member
  · obtain rfl := List.mem_singleton.mp member
    exact Trail.nil table
  · exact absurd member List.not_mem_nil

theorem trail_of_handle (detect : config.detectCycles = true) (item : Transit Box)
    (report : RangeReport) (handled : Worklist) (trail : table.Trail item.path)
    (ok : table.handle config report item = .ok handled) : table.OnTrails handled := by
  rcases handle_ok_cases ok with ⟨_, rfl⟩ | ⟨workflow, pieces, arrived, _, rfl⟩
  · exact fun _ member => absurd member List.not_mem_nil
  · intro next member
    obtain ⟨piece, _, rfl⟩ := List.mem_map.mp member
    rw [detect] at arrived
    exact trail.extend arrived

theorem onTrails_of_turn (detect : config.detectCycles = true) {list next : Worklist}
    (onTrails : table.OnTrails list) (turn : Turn table config .any list (.ok next)) :
    table.OnTrails next :=
  turn.forall_pending (trail_of_handle detect) onTrails

/-! ## The number of turns -/

def targetCount (table : Table) : Nat :=
  (table.entries.map fun entry => entry.2.targets.length).sum

theorem length_targets_le {name : String} {workflow : Workflow}
    (found : table.find? name = some workflow) :
    workflow.targets.length ≤ table.targetCount := by
  simp only [find?, List.lookup_eq_some_iff] at found
  obtain ⟨before, after, split, _⟩ := found
  simp only [targetCount, split, List.map_append, List.map_cons, List.sum_append, List.sum_cons]
  omega

/-- A bound on the number of turns that a pending box and all that comes of it can take. -/
def capacity (table : Table) (item : Transit Box) : Nat :=
  (table.targetCount + 1) ^ (table.depth - item.path.length)

def totalCapacity (table : Table) (list : Worklist) : Nat :=
  (list.pending.map table.capacity).sum

theorem capacity_handle_lt (detect : config.detectCycles = true) {report : RangeReport}
    {item : Transit Box} {handled : Worklist} (trail : table.Trail item.path)
    (ok : table.handle config report item = .ok handled) :
    table.totalCapacity handled < table.capacity item := by
  rcases handle_ok_cases ok with ⟨_, rfl⟩ | ⟨workflow, pieces, arrived, divided, rfl⟩
  · exact Nat.pow_pos (Nat.succ_pos _)
  · rw [detect] at arrived
    have longer := (trail.extend arrived).length_le
    rw [List.length_append, List.length_singleton] at longer
    have few : pieces.length ≤ table.targetCount := by
      obtain rfl := eq_divide_of_pushPieces divided
      have pieceByRule := Workflow.length_divideBy_le config.scale workflow.fallback
        workflow.rules item.load
      have targets := length_targets_le (name_of_arrive arrived).1
      rw [Workflow.targets, List.length_append, List.length_map, List.length_singleton] at targets
      exact Nat.le_trans pieceByRule targets
    -- Every piece has one name more on its path than the box, hence one level less to go.
    have same : (pieces.map item.onward).map table.capacity =
        List.replicate pieces.length
          ((table.targetCount + 1) ^ (table.depth - (item.path.length + 1))) := by
      rw [List.map_map, ← List.map_const']
      apply List.map_congr_left
      intro piece _
      simp only [Function.comp, capacity, Transit.onward, List.length_append,
        List.length_singleton]
    have deeper : table.depth - item.path.length =
        table.depth - (item.path.length + 1) + 1 := by
      simp only [depth]
      omega
    rw [totalCapacity, same, List.sum_replicate_nat, capacity, deeper, Nat.pow_succ,
      Nat.mul_comm]
    exact Nat.mul_lt_mul_of_pos_left (Nat.lt_succ_of_le few) (Nat.pow_pos (Nat.succ_pos _))

theorem totalCapacity_turn_lt (detect : config.detectCycles = true) {list next : Worklist}
    (onTrails : table.OnTrails list) (turn : Turn table config .any list (.ok next)) :
    table.totalCapacity next < table.totalCapacity list := by
  cases turn with
  | @next item others fresh report taken ok =>
      have smaller := capacity_handle_lt detect (onTrails item taken.mem) ok
      have whole : table.totalCapacity list =
          table.capacity item + (others.map table.capacity).sum := by
        rw [totalCapacity, (taken.perm.map table.capacity).sum_nat, List.map_cons, List.sum_cons]
      rw [whole]
      simp only [totalCapacity, List.map_append, List.sum_append] at smaller ⊢
      omega

theorem turns_le (detect : config.detectCycles = true) {n : Nat} {first list : Worklist}
    (onTrails : table.OnTrails first) (turns : Turns table config .any n first list) :
    table.OnTrails list ∧ table.totalCapacity list + n ≤ table.totalCapacity first := by
  induction turns with
  | none => exact ⟨onTrails, Nat.le_refl _⟩
  | more _ turn ih =>
      obtain ⟨middleOnTrails, bounded⟩ := ih onTrails
      have smaller := totalCapacity_turn_lt detect middleOnTrails turn
      exact ⟨onTrails_of_turn detect middleOnTrails turn, by omega⟩

theorem exists_run (detect : config.detectCycles = true) {first : Worklist} {n : Nat}
    {list : Worklist} (turns : Turns table config .any n first list)
    (onTrails : table.OnTrails list) : ∃ outcome, Run table config .any first outcome := by
  -- Any pending box will do for the next turn: the total capacity goes down in every case.
  induction bound : table.totalCapacity list using Nat.strongRecOn generalizing n list with
  | ind bound ih =>
      obtain ⟨pending, report⟩ := list
      cases pending with
      | nil => exact ⟨_, .ok turns⟩
      | cons item others =>
          have taken : Takes.any (item :: others) item others := ⟨[], others, rfl, rfl⟩
          cases handled : table.handle config report item with
          | error fault => exact ⟨_, .error turns (.fault taken handled)⟩
          | ok next =>
              have turn : Turn table config .any ⟨item :: others, report⟩
                  (.ok ⟨others ++ next.pending, next.report⟩) := .next taken handled
              have smaller := totalCapacity_turn_lt detect onTrails turn
              exact ih _ (bound ▸ smaller) (.more turns turn)
                (onTrails_of_turn detect onTrails turn) rfl

theorem totalCapacity_startList_le (table : Table) (config : Config) (box : Option Box) :
    table.totalCapacity (startList config box) ≤ (table.targetCount + 1) ^ table.depth := by
  simp only [totalCapacity, startList]
  split
  · simp [capacity]
  · exact Nat.zero_le _

end Table

end PartSorting
