import PartSorting.Proofs.Table.Failure
import PartSorting.Proofs.Table.Tally

/-! # The order in which boxes are taken does not matter

What a pending box contributes to the report is told by its own sweep, whatever is taken before
it.  So while all sweeps of pending boxes succeed, the report so far and the contributions of the
pending boxes add up to the same tally after every turn; and once the sweep of a pending box
fails, some pending box is always such.  Taking the last box each time is the evaluation itself.

Runs that fail may fail differently.  The faults of all of them lie in the graph of the workflows,
or none of their faults does, unless there are both a box that cannot arrive and a box that cannot
be divided because the report on it is too long: then it depends on which of them is taken first. -/

set_option autoImplicit false

namespace PartSorting.Table

variable {table : Table} {config : Config} {box : Option Box} {item : Transit Box}

def sweepOf (table : Table) (config : Config) (item : Transit Box) :
    Except Fault (Arrivals Box) :=
  (table.sweepFrom config.detectCycles (pushPieces config.scale)
    (table.depth - item.path.length) item.path (item.name, item.load)).outcome

section Sweeps

variable (trail : table.Trail item.path)

include trail

theorem depth_sub_length : table.depth - item.path.length =
    table.depth - (item.path.length + 1) + 1 := by
  have bounded := trail.length_le
  simp only [depth]
  omega

theorem sweepOf_of_error {fault : Fault}
    (failed : table.arrive config.detectCycles item.path item.name = .error fault) :
    table.sweepOf config item = .error fault := by
  simp only [sweepOf, depth_sub_length trail, sweepFrom, failed]
  rfl

theorem sweepOf_of_none
    (arrived : table.arrive config.detectCycles item.path item.name = .ok none) :
    table.sweepOf config item = .ok (.atSink item.name item.load) := by
  simp only [sweepOf, depth_sub_length trail, sweepFrom, arrived]
  rfl

theorem sweepOf_of_some {workflow : Workflow}
    (arrived : table.arrive config.detectCycles item.path item.name = .ok (some workflow)) :
    table.sweepOf config item =
      (pushPieces config.scale item.name workflow item.load).outcome >>= fun pieces =>
        (pieces.reverse.mapM fun piece => table.sweepOf config (item.onward piece)) >>=
          fun results => .ok (.afterVisit results) := by
  simp only [sweepOf, depth_sub_length trail, sweepFrom, arrived, Traced.outcome_bind,
    Traced.outcome_mapM, Transit.onward, List.length_append, List.length_singleton]
  rfl

end Sweeps

/-! ## Taking the last box -/

/-- Boxes that settle one by one from the end of the list settle together. -/
theorem settles_stack {stack : List (String × Box)}
    (each : ∀ piece ∈ stack, ∀ others report,
      Settles table config .last ⟨others ++ [item.onward piece], report⟩ others
        ((table.sweepOf config (item.onward piece)).map (report.absorb table)))
    (others : List (Transit Box)) (report : RangeReport) :
    Settles table config .last ⟨others ++ stack.reverse.map item.onward, report⟩ others
      ((stack.mapM fun piece => table.sweepOf config (item.onward piece)).map fun results =>
        results.foldl (RangeReport.absorb table) report) := by
  induction stack generalizing report with
  | nil =>
      rw [List.reverse_nil, List.map_nil, List.append_nil]
      exact .ok (.none _)
  | cons piece stack ih =>
      -- The first of the stack is the last in the list, so the rest of the stack waits before it.
      have first := each piece List.mem_cons_self (others ++ stack.reverse.map item.onward) report
      have later := ih fun other member => each other (List.mem_cons_of_mem _ member)
      rw [List.reverse_cons, List.map_append, ← List.append_assoc, List.mapM_cons]
      cases swept : table.sweepOf config (item.onward piece) with
      | error fault =>
          rw [swept] at first
          cases first with
          | error turns turn => exact .error turns turn
      | ok arrivals =>
          rw [swept] at first
          cases first with
          | ok turns =>
              have settled := turns.settles (later (report.absorb table arrivals))
              cases rest : stack.mapM fun piece => table.sweepOf config (item.onward piece) with
              | error fault =>
                  rw [rest] at settled
                  exact settled
              | ok results =>
                  rw [rest] at settled
                  exact settled

theorem settles_of_some (trail : table.Trail item.path) {workflow : Workflow}
    (arrived : table.arrive config.detectCycles item.path item.name = .ok (some workflow))
    (each : ∀ piece others report,
      Settles table config .last ⟨others ++ [item.onward piece], report⟩ others
        ((table.sweepOf config (item.onward piece)).map (report.absorb table)))
    (others : List (Transit Box)) (report : RangeReport) :
    Settles table config .last ⟨others ++ [item], report⟩ others
      ((table.sweepOf config item).map (report.absorb table)) := by
  rw [sweepOf_of_some trail arrived]
  cases divided : (pushPieces config.scale item.name workflow item.load).outcome with
  | error fault =>
      exact .error (.none _) (.fault rfl (handle_of_undivided arrived divided))
  | ok pieces =>
      have turn : Turn table config .last ⟨others ++ [item], report⟩
          (.ok ⟨others ++ pieces.map item.onward, report.visit⟩) :=
        .next rfl (handle_of_pieces arrived divided)
      refine (Turns.more (.none _) turn).settles ?_
      have stack := @settles_stack table config item pieces.reverse (fun piece _ => each piece)
        others report.visit
      rw [List.reverse_reverse] at stack
      simp only [bind, Except.bind]
      cases swept : pieces.reverse.mapM fun piece => table.sweepOf config (item.onward piece) with
      | error fault =>
          rw [swept] at stack
          exact stack
      | ok results =>
          rw [swept] at stack
          simp only [Except.map, RangeReport.foldl_absorb] at stack
          exact stack

/-- The last box and all that comes of it are taken before the others, with the outcome of its
sweep. -/
theorem settles_last (detect : config.detectCycles = true) (trail : table.Trail item.path)
    (others : List (Transit Box)) (report : RangeReport) :
    Settles table config .last ⟨others ++ [item], report⟩ others
      ((table.sweepOf config item).map (report.absorb table)) := by
  induction room : table.depth - item.path.length generalizing item others report with
  | zero =>
      rw [depth_sub_length trail] at room
      exact absurd room (Nat.succ_ne_zero _)
  | succ room ih =>
      cases arrived : table.arrive config.detectCycles item.path item.name with
      | error fault =>
          rw [sweepOf_of_error trail arrived]
          exact .error (.none _) (.fault rfl (handle_of_error arrived))
      | ok next =>
          cases next with
          | none =>
              rw [sweepOf_of_none trail arrived]
              have turn : Turn table config .last ⟨others ++ [item], report⟩
                  (.ok ⟨others ++ [], report.deliver table item.name item.load⟩) :=
                .next rfl (handle_of_none arrived)
              rw [List.append_nil, RangeReport.deliver_eq_absorb] at turn
              exact .ok (.more (.none _) turn)
          | some workflow =>
              refine settles_of_some trail arrived ?_ others report
              intro piece others report
              refine ih (trail.extend (detect ▸ arrived)) others report ?_
              rw [depth_sub_length trail] at room
              rw [Transit.onward, List.length_append, List.length_singleton]
              exact Nat.succ.inj room

/-- Taking the last box each time gives what the evaluation gives. -/
theorem run_last_evaluate (detect : config.detectCycles = true) (box : Option Box) :
    Run table config .last (startList config box) (table.evaluate config box).outcome := by
  by_cases positive : 0 < Box.volume (startBox config box)
  · have settled := @settles_last table config ⟨[], config.entry, startBox config box⟩ detect
      (Trail.nil table) [] (.blank (Box.volume (startBox config box)))
    simp only [startList, positive, if_true, evaluate, Traced.outcome_bind]
    cases swept : (table.sweep config (pushPieces config.scale) (startBox config box)).outcome with
    | error fault =>
        have failed : table.sweepOf config ⟨[], config.entry, startBox config box⟩ =
            .error fault := swept
        rw [failed] at settled
        exact settled
    | ok arrivals =>
        have finished : table.sweepOf config ⟨[], config.entry, startBox config box⟩ =
            .ok arrivals := swept
        rw [finished] at settled
        simp only [Except.map, ← RangeReport.reportOf_eq_absorb] at settled
        exact settled
  · simp only [startList, positive, if_false, evaluate]
    exact .ok (.none _)

/-! ## Taking any box -/

def yield (table : Table) (config : Config) (item : Transit Box) : Tally :=
  match table.sweepOf config item with
  | .ok arrivals => arrivals.tally table
  | .error _ => 0

theorem yield_of_ok {arrivals : Arrivals Box} (swept : table.sweepOf config item = .ok arrivals) :
    table.yield config item = arrivals.tally table := by
  simp only [yield, swept]

theorem map_yield_onward {pieces : List (String × Box)} {results : List (Arrivals Box)}
    (all : List.Forall₂ (fun piece result => table.sweepOf config (item.onward piece) = .ok result)
      pieces results) :
    (pieces.map item.onward).map (table.yield config) = results.map (Arrivals.tally table) := by
  induction all with
  | nil => rfl
  | cons first _ ih => simp only [List.map_cons, ih, yield_of_ok first]

/-- A box whose sweep succeeds is taken without a fault.  The sweeps of what comes of it succeed,
and its contribution goes to the report and to them. -/
theorem handle_of_swept (trail : table.Trail item.path) {arrivals : Arrivals Box}
    (swept : table.sweepOf config item = .ok arrivals) (report : RangeReport) :
    ∃ fresh after, table.handle config report item = .ok ⟨fresh, after⟩ ∧
      (∀ next ∈ fresh, ∃ later, table.sweepOf config next = .ok later) ∧
      after.tally + (fresh.map (table.yield config)).sum =
        report.tally + arrivals.tally table := by
  cases arrived : table.arrive config.detectCycles item.path item.name with
  | error fault =>
      rw [sweepOf_of_error trail arrived] at swept
      contradiction
  | ok next =>
      cases next with
      | none =>
          rw [sweepOf_of_none trail arrived] at swept
          obtain rfl := Except.ok.inj swept
          refine ⟨[], _, handle_of_none arrived, fun _ member => absurd member List.not_mem_nil, ?_⟩
          rw [RangeReport.deliver_eq_absorb, RangeReport.tally_absorb, List.map_nil, List.sum_nil,
            add_zero, Arrivals.tally]
      | some workflow =>
          rw [sweepOf_of_some trail arrived] at swept
          obtain ⟨pieces, divided, swept⟩ := Outcome.bind_ok swept
          obtain ⟨results, followed, swept⟩ := Outcome.bind_ok swept
          obtain rfl := Except.ok.inj swept
          have all := Outcome.forall₂_of_mapM_ok followed
          refine ⟨_, _, handle_of_pieces arrived divided, ?_, ?_⟩
          · intro next member
            obtain ⟨piece, pieceMember, rfl⟩ := List.mem_map.mp member
            obtain ⟨result, _, sweptPiece⟩ :=
              exists_of_forall₂_left all (List.mem_reverse.mpr pieceMember)
            exact ⟨result, sweptPiece⟩
          · have yields := map_yield_onward all
            rw [List.map_reverse, List.map_reverse] at yields
            rw [Arrivals.tally_afterVisit, ← yields, List.sum_reverse, RangeReport.visit_eq_absorb,
              RangeReport.tally_absorb, add_assoc, Arrivals.tally]

/-- If a box whose sweep fails is taken without a fault, then the sweep of something that comes of
it fails. -/
theorem exists_failing_of_handle (trail : table.Trail item.path) {fault : Fault}
    (failed : table.sweepOf config item = .error fault) {report after : RangeReport}
    {fresh : List (Transit Box)} (handled : table.handle config report item = .ok ⟨fresh, after⟩) :
    ∃ next ∈ fresh, ∃ cause, table.sweepOf config next = .error cause := by
  rcases handle_ok_cases handled with ⟨arrived, _⟩ | ⟨workflow, pieces, arrived, divided, same⟩
  · rw [sweepOf_of_none trail arrived] at failed
    contradiction
  · rw [sweepOf_of_some trail arrived, divided] at failed
    rcases Outcome.bind_error failed with impossible | ⟨_, samePieces, failed⟩
    · contradiction
    · obtain rfl := Except.ok.inj samePieces
      rcases Outcome.bind_error failed with followed | ⟨_, _, impossible⟩
      · obtain ⟨piece, member, follow⟩ := Outcome.exists_of_mapM_error followed
        obtain ⟨rfl, _⟩ := Worklist.mk.inj same
        exact ⟨_, List.mem_map_of_mem (List.mem_reverse.mp member), fault, follow⟩
      · contradiction

/-- The sweeps of all pending boxes succeed, and the report so far and what the boxes contribute
to it add up to a total. -/
structure Promising (table : Table) (config : Config) (total : Tally) (list : Worklist) : Prop where
  onTrails : table.OnTrails list
  swept : ∀ item ∈ list.pending, ∃ arrivals, table.sweepOf config item = .ok arrivals
  adds : list.report.tally + (list.pending.map (table.yield config)).sum = total

structure Doomed (table : Table) (config : Config) (list : Worklist) : Prop where
  onTrails : table.OnTrails list
  fails : ∃ item ∈ list.pending, ∃ fault, table.sweepOf config item = .error fault

theorem promising_or_doomed {list : Worklist} (onTrails : table.OnTrails list) :
    (∃ total, Promising table config total list) ∨ Doomed table config list := by
  by_cases swept : ∀ item ∈ list.pending, ∃ arrivals, table.sweepOf config item = .ok arrivals
  · exact .inl ⟨_, onTrails, swept, rfl⟩
  · push Not at swept
    obtain ⟨item, member, unfinished⟩ := swept
    cases outcome : table.sweepOf config item with
    | error fault => exact .inr ⟨onTrails, item, member, fault, outcome⟩
    | ok arrivals => exact absurd outcome (unfinished arrivals)

namespace Promising

variable {total : Tally} {list : Worklist}

theorem turn (detect : config.detectCycles = true) {outcome : Except Fault Worklist}
    (promising : Promising table config total list)
    (turn : Turn table config .any list outcome) :
    ∃ next, outcome = .ok next ∧ Promising table config total next := by
  have onTrails := promising.onTrails
  cases turn with
  | fault taken failed =>
      obtain ⟨arrivals, swept⟩ := promising.swept _ taken.mem
      obtain ⟨_, _, handled, _⟩ := handle_of_swept (onTrails _ taken.mem) swept list.report
      rw [failed] at handled
      contradiction
  | @next item others fresh report taken ok =>
      obtain ⟨arrivals, swept⟩ := promising.swept item taken.mem
      obtain ⟨_, _, handled, freshSwept, adds⟩ :=
        handle_of_swept (onTrails item taken.mem) swept list.report
      obtain ⟨rfl, rfl⟩ := Worklist.mk.inj (Except.ok.inj (ok.symm.trans handled))
      refine ⟨_, rfl, onTrails_of_turn detect onTrails (.next taken ok), ?_, ?_⟩
      · intro next nextMember
        rcases List.mem_append.mp nextMember with other | new
        · exact promising.swept next (taken.mem_of_mem_others other)
        · exact freshSwept next new
      · rw [← promising.adds, (taken.perm.map (table.yield config)).sum_eq, List.map_cons,
          List.sum_cons, yield_of_ok swept, ← add_assoc, ← adds, List.map_append, List.sum_append,
          add_assoc, add_comm (List.sum _)]

theorem run (detect : config.detectCycles = true) {outcome : Except Fault RangeReport}
    (promising : Promising table config total list)
    (ran : Run table config .any list outcome) :
    ∃ report, outcome = .ok report ∧ report.tally = total := by
  have kept : ∀ list next, Promising table config total list →
      Turn table config .any list (.ok next) → Promising table config total next := by
    intro list next promising turned
    obtain ⟨_, same, later⟩ := promising.turn detect turned
    obtain rfl := Except.ok.inj same
    exact later
  cases ran with
  | ok turns =>
      have last := (turns.invariant kept promising).adds
      rw [List.map_nil, List.sum_nil, add_zero] at last
      exact ⟨_, rfl, last⟩
  | error turns turned =>
      obtain ⟨_, impossible, _⟩ := (turns.invariant kept promising).turn detect turned
      contradiction

end Promising

namespace Doomed

theorem turn (detect : config.detectCycles = true) {list next : Worklist}
    (doomed : Doomed table config list) (turn : Turn table config .any list (.ok next)) :
    Doomed table config next := by
  obtain ⟨onTrails, item, member, fault, failed⟩ := doomed
  refine ⟨onTrails_of_turn detect onTrails turn, ?_⟩
  cases turn with
  | @next taker others fresh report taken ok =>
      rcases List.mem_cons.mp (taken.perm.mem_iff.mp member) with rfl | other
      · obtain ⟨next, new, cause, failing⟩ :=
          exists_failing_of_handle (onTrails item member) failed ok
        exact ⟨next, List.mem_append_right others new, cause, failing⟩
      · exact ⟨item, List.mem_append_left fresh other, fault, failed⟩

theorem run (detect : config.detectCycles = true) {list : Worklist}
    {outcome : Except Fault RangeReport} (doomed : Doomed table config list)
    (ran : Run table config .any list outcome) : ∃ fault, outcome = .error fault := by
  cases ran with
  | error _ _ => exact ⟨_, rfl⟩
  | ok turns =>
      obtain ⟨_, item, member, _⟩ := turns.invariant (fun _ _ => turn detect) doomed
      exact absurd member List.not_mem_nil

end Doomed

/-! ## The faults of a run -/

def Lost (table : Table) (config : Config) (box : Option Box) : Prop :=
  0 < Box.volume (startBox config box) ∧
    ∃ last fault, table.Loads config box last ∧
      table.arrive config.detectCycles last.path last.name = .error fault

/-- If one run ends in a fault of the graph of workflows, then so does every run. -/
def RunsFailAlike (table : Table) (config : Config) (box : Option Box) : Prop :=
  ∀ fault other, fault.InGraph →
    Run table config .any (startList config box) (.error fault) →
    Run table config .any (startList config box) other →
      ∃ faultToo, other = .error faultToo ∧ faultToo.InGraph

theorem loads_of_handle {report : RangeReport} {handled : Worklist}
    (loads : table.Loads config box item)
    (ok : table.handle config report item = .ok handled) :
    ∀ fresh ∈ handled.pending, table.Loads config box fresh := by
  rcases handle_ok_cases ok with ⟨_, rfl⟩ | ⟨workflow, pieces, arrived, divided, rfl⟩
  · exact fun _ member => absurd member List.not_mem_nil
  · intro fresh member
    obtain ⟨piece, pieceMember, rfl⟩ := List.mem_map.mp member
    exact Relation.ReflTransGen.tail loads (.piece arrived divided pieceMember)

theorem loads_of_turns {n : Nat} {list : Worklist}
    (turns : Turns table config .any n (startList config box) list) (member : item ∈ list.pending) :
    0 < Box.volume (startBox config box) ∧ table.Loads config box item := by
  have first : ∀ item ∈ (startList config box).pending,
      0 < Box.volume (startBox config box) ∧ table.Loads config box item := by
    intro item member
    simp only [startList] at member
    split at member
    · rename_i positive
      obtain rfl := List.mem_singleton.mp member
      exact ⟨positive, .refl⟩
    · exact absurd member List.not_mem_nil
  have kept : ∀ list next : Worklist,
      (∀ item ∈ list.pending,
        0 < Box.volume (startBox config box) ∧ table.Loads config box item) →
      Turn table config .any list (.ok next) →
      ∀ item ∈ next.pending,
        0 < Box.volume (startBox config box) ∧ table.Loads config box item := by
    intro list next before turn
    refine turn.forall_pending ?_ before
    intro item report handled loads ok fresh freshMember
    exact ⟨loads.1, loads_of_handle loads.2 ok fresh freshMember⟩
  exact turns.invariant kept first item member

theorem exists_turns_of_reaches {last : Transit Box}
    (reached : Reaches table config.detectCycles (pushPieces config.scale) item last)
    {list : Worklist} (member : item ∈ list.pending) :
    ∃ n next, Turns table config .any n list next ∧ last ∈ next.pending := by
  induction reached with
  | refl => exact ⟨0, list, .none list, member⟩
  | tail _ move ih =>
      obtain ⟨n, middle, turns, pending⟩ := ih
      cases move with
      | @piece path name load workflow pieces piece arrived divided pieceMember =>
          obtain ⟨before, after, split⟩ := List.append_of_mem pending
          have handled : table.handle config middle.report ⟨path, name, load⟩ =
              .ok ⟨pieces.map (Transit.onward ⟨path, name, load⟩), middle.report.visit⟩ :=
            handle_of_pieces arrived divided
          refine ⟨n + 1, _, .more turns (.next ⟨before, after, split, rfl⟩ handled), ?_⟩
          apply List.mem_append_right
          exact List.mem_map_of_mem pieceMember

/-- A load that cannot be handled ends some run. -/
theorem run_error_of_loads (positive : 0 < Box.volume (startBox config box))
    (loads : table.Loads config box item) {fault : Fault}
    (failed : ∀ report, table.handle config report item = .error fault) :
    Run table config .any (startList config box) (.error fault) := by
  have started : (⟨[], config.entry, startBox config box⟩ : Transit Box) ∈
      (startList config box).pending := by
    simp only [startList, positive, if_true]
    exact List.mem_singleton_self _
  obtain ⟨n, list, turns, pending⟩ := exists_turns_of_reaches loads started
  obtain ⟨before, after, split⟩ := List.append_of_mem pending
  exact .error turns (.fault ⟨before, after, split, rfl⟩ (failed list.report))

/-- A run fails where a box cannot arrive, or where the report on a division is too long. -/
theorem cause_of_run_error {fault : Fault}
    (ran : Run table config .any (startList config box) (.error fault)) :
    (fault.InGraph ∧ Lost table config box) ∨
      (fault = .integerTooLong ∧ Overlong table config box) := by
  cases ran with
  | error turns turned =>
      cases turned with
      | fault taken failed =>
          obtain ⟨positive, loads⟩ := loads_of_turns turns taken.mem
          rcases handle_error_cases failed with lost | ⟨workflow, arrived, undivided⟩
          · exact .inl ⟨inGraph_of_arrive lost, positive, _, fault, loads, lost⟩
          · exact .inr (overlong_of_undivided positive loads arrived undivided)

theorem run_error_of_lost (lost : Lost table config box) :
    ∃ fault : Fault, fault.InGraph ∧
      Run table config .any (startList config box) (.error fault) := by
  obtain ⟨positive, last, fault, loads, arrived⟩ := lost
  refine ⟨fault, inGraph_of_arrive arrived, run_error_of_loads positive loads fun report => ?_⟩
  exact handle_of_error arrived

/-- The first box on the way whose division cannot be reported is a load of the evaluation. -/
theorem undivided_of_overlong (overlong : Overlong table config box) :
    ∃ last workflow, table.Loads config box last ∧
      table.arrive config.detectCycles last.path last.name = .ok (some workflow) ∧
      ¬(workflow.divide config.scale last.load).Written := by
  obtain ⟨_, last, workflow, reached, arrived, unwritten⟩ := overlong
  have loadsOrUndivided : table.Loads config box last ∨
      ∃ last workflow, table.Loads config box last ∧
        table.arrive config.detectCycles last.path last.name = .ok (some workflow) ∧
        ¬(workflow.divide config.scale last.load).Written := by
    clear arrived unwritten
    induction reached with
    | refl => exact .inl .refl
    | tail _ move ih =>
        rcases ih with loads | undivided
        · cases move with
          | @piece path name load workflow pieces piece arrived divided member =>
              by_cases written : (workflow.divide config.scale load).Written
              · obtain rfl := Except.ok.inj divided
                refine .inl (Relation.ReflTransGen.tail loads (.piece arrived ?_ member))
                rw [outcome_pushPieces, if_pos written]
              · exact .inr ⟨_, workflow, loads, arrived, written⟩
        · exact .inr undivided
  rcases loadsOrUndivided with loads | undivided
  · exact ⟨last, workflow, loads, arrived, unwritten⟩
  · exact undivided

theorem run_error_of_overlong (overlong : Overlong table config box) :
    Run table config .any (startList config box) (.error .integerTooLong) := by
  obtain ⟨last, workflow, loads, arrived, unwritten⟩ := undivided_of_overlong overlong
  refine run_error_of_loads overlong.1 loads fun report => handle_of_undivided arrived ?_
  rw [outcome_pushPieces, if_neg unwritten]

/-- When all thresholds can be written, only the division of the start box can be reported with a
number too long.  Then no run goes on from there. -/
theorem not_overlong_of_lost (thresholds : table.ThresholdsWritten)
    (lost : Lost table config box) : ¬Overlong table config box := by
  intro overlong
  obtain ⟨positive, missing, fault, missingLoads, notArrived⟩ := lost
  obtain ⟨last, workflow, loads, arrived, unwritten⟩ := undivided_of_overlong overlong
  have usable := (usable_of_reaches loads.cut (usable_startBox positive)).1
  have entry := find?_eq_some_iff.mp (name_of_arrive arrived).1
  rcases Relation.ReflTransGen.cases_tail loads with rfl | ⟨before, _, move⟩
  · rcases Relation.ReflTransGen.cases_head missingLoads with rfl | ⟨after, move, _⟩
    · rw [notArrived] at arrived
      cases arrived
    · cases move with
      | piece arrivedToo divided _ =>
          rw [arrived] at arrivedToo
          obtain rfl := Option.some.inj (Except.ok.inj arrivedToo)
          exact unwritten (cut_of_pushPieces divided).2
  · cases move with
    | piece _ divided member =>
        obtain rfl := eq_divide_of_pushPieces divided
        have pushed := (cut_of_pushPieces divided).2.volumes _ member
        apply unwritten
        constructor
        · intro rule pruned
          exact thresholds _ entry rule (Workflow.mem_rules_of_mem_pruned pruned)
        · intro piece pieceMember
          obtain ⟨pieceUsable, smaller⟩ := Workflow.usable_of_mem_divide usable pieceMember
          exact pushed.of_le (Int.le_of_lt pieceUsable.volume_pos) smaller

theorem all_runs_fail (detect : config.detectCycles = true) {fault : Fault}
    {other : Except Fault RangeReport}
    (ran : Run table config .any (startList config box) (.error fault))
    (ranToo : Run table config .any (startList config box) other) :
    ∃ faultToo, other = .error faultToo := by
  rcases promising_or_doomed (onTrails_startList table config box) with
    ⟨total, promising⟩ | doomed
  · obtain ⟨_, impossible, _⟩ := promising.run detect ran
    cases impossible
  · exact doomed.run detect ranToo

theorem runsFailAlike_iff (detect : config.detectCycles = true) :
    RunsFailAlike table config box ↔ ¬(Lost table config box ∧ Overlong table config box) := by
  constructor
  · intro alike both
    obtain ⟨fault, inGraph, ran⟩ := run_error_of_lost both.1
    obtain ⟨faultToo, same, inGraphToo⟩ :=
      alike fault _ inGraph ran (run_error_of_overlong both.2)
    obtain rfl := Except.error.inj same
    cases inGraphToo
  · intro notBoth fault other inGraph ran ranToo
    obtain ⟨faultToo, rfl⟩ := all_runs_fail detect ran ranToo
    refine ⟨faultToo, rfl, ?_⟩
    rcases cause_of_run_error ran with ⟨_, lost⟩ | ⟨rfl, _⟩
    · rcases cause_of_run_error ranToo with ⟨inGraphToo, _⟩ | ⟨_, overlong⟩
      · exact inGraphToo
      · exact absurd ⟨lost, overlong⟩ notBoth
    · cases inGraph

/-- In whatever order boxes are taken, a run comes to an end.  The runs of an evaluation, one of
which is the evaluation itself, all succeed with the same report but for the order of the accepted
boxes, or they all fail, in the graph or because a report is too long.  A fault in the graph of one
run means one in every run exactly if there are not both a box that cannot arrive and a division
that cannot be reported, and so whenever the thresholds of the table can be written. -/
theorem runs_agree (detect : config.detectCycles = true) :
    Run table config .last (startList config box) (table.evaluate config box).outcome ∧
    Run table config .any (startList config box) (table.evaluate config box).outcome ∧
    (∀ n list, Turns table config .any n (startList config box) list →
      n ≤ (table.targetCount + 1) ^ table.depth ∧
        ∃ outcome, Run table config .any list outcome) ∧
    (∀ report other, Run table config .any (startList config box) (.ok report) →
      Run table config .any (startList config box) other →
        ∃ reportToo, other = .ok reportToo ∧ RangeReport.SameButOrder report reportToo) ∧
    (∀ fault other, Run table config .any (startList config box) (.error fault) →
      Run table config .any (startList config box) other →
        ∃ faultToo, other = .error faultToo ∧
          (faultToo.InGraph ∨ faultToo = .integerTooLong)) ∧
    (RunsFailAlike table config box ↔ ¬(Lost table config box ∧ Overlong table config box)) ∧
    (table.ThresholdsWritten → RunsFailAlike table config box) := by
  have onTrails := onTrails_startList table config box
  have evaluated := @run_last_evaluate table config detect box
  refine ⟨evaluated, evaluated.mono fun _ _ _ => Takes.any_of_last, ?_, ?_, ?_,
    runsFailAlike_iff detect, ?_⟩
  · intro n list turns
    obtain ⟨listOnTrails, bounded⟩ := turns_le detect onTrails turns
    have whole := totalCapacity_startList_le table config box
    exact ⟨by omega, exists_run detect (.none list) listOnTrails⟩
  · intro report other ran ranToo
    rcases promising_or_doomed onTrails with ⟨total, promising⟩ | doomed
    · obtain ⟨_, same, tally⟩ := promising.run detect ran
      obtain rfl := Except.ok.inj same
      obtain ⟨reportToo, rfl, tallyToo⟩ := promising.run detect ranToo
      exact ⟨reportToo, rfl, RangeReport.sameButOrder_of_tally (tally.trans tallyToo.symm)⟩
    · obtain ⟨_, impossible⟩ := doomed.run detect ran
      cases impossible
  · intro fault other ran ranToo
    obtain ⟨faultToo, rfl⟩ := all_runs_fail detect ran ranToo
    exact ⟨faultToo, rfl, (cause_of_run_error ranToo).imp And.left And.left⟩
  · intro thresholds
    rw [runsFailAlike_iff detect]
    exact fun both => not_overlong_of_lost thresholds both.1 both.2

theorem runs_agree_forked :
    let config : Config := { Config.usual with scale := ⟨1, 3⟩ }
    (forked.evaluate config none).outcome = .error (.cyclicWorkflow ["in", "in"]) ∧
    ∀ other, Run forked config .any (startList config none) other →
      ∃ fault, other = .error fault ∧ fault.InGraph := by
  intro config
  have failed : (forked.evaluate config none).outcome = .error (.cyclicWorkflow ["in", "in"]) := by
    decide +kernel
  have thresholds : forked.ThresholdsWritten := by decide +kernel
  obtain ⟨_, ran, _, _, _, _, alike⟩ := @runs_agree forked config none rfl
  rw [failed] at ran
  exact ⟨failed, fun other => alike thresholds _ other (.cycle _) ran⟩

/-- A table that sends the parts with a small `x` to a name that has no workflow, and the others by
a rule with a threshold that is too long to be written. -/
def parting : Table where
  entries :=
    [("in", ⟨"in", [⟨⟨.x, .lessThan, 5⟩, "lower"⟩], "upper"⟩),
      ("lower", ⟨"lower", [], "gone"⟩),
      ("upper", ⟨"upper", [⟨⟨.x, .greaterThan, outsize⟩, "A"⟩], "R"⟩)]
  accept := "A"
  reject := "R"
  names_nodup := by decide
  accept_not_name := by decide
  reject_not_name := by decide

/-- The upper box is taken first in the evaluation, but a run that takes the lower one first comes
to the unknown name. -/
theorem runs_part :
    let config : Config := { Config.usual with scale := ⟨1, 4000⟩ }
    (parting.evaluate config none).outcome = .error .integerTooLong ∧
    Run parting config .any (startList config none) (.error (.unknownWorkflow "gone")) ∧
    ¬RunsFailAlike parting config none := by
  intro config
  have evaluated : (parting.evaluate config none).outcome = .error .integerTooLong := by
    decide +kernel
  have positive : 0 < Box.volume (startBox config none) := by decide +kernel
  let piece : Box := ⟨[⟨1, 4⟩], [⟨1, 4000⟩], [⟨1, 4000⟩], [⟨1, 4000⟩]⟩
  have pushed : (pushPieces config.scale "in" ⟨"in", [⟨⟨.x, .lessThan, 5⟩, "lower"⟩], "upper"⟩
      (startBox config none)).outcome = .ok [("lower", piece),
        ("upper", ⟨[⟨5, 4000⟩], [⟨1, 4000⟩], [⟨1, 4000⟩], [⟨1, 4000⟩]⟩)] := by
    decide +kernel
  have pushedOn : (pushPieces config.scale "lower" ⟨"lower", [], "gone"⟩ piece).outcome =
      .ok [("gone", piece)] := by
    decide +kernel
  have toLower : Moves parting config.detectCycles (pushPieces config.scale)
      ⟨[], "in", startBox config none⟩ ⟨["in"], "lower", piece⟩ :=
    .piece (by decide) pushed List.mem_cons_self
  have toGone : Moves parting config.detectCycles (pushPieces config.scale)
      ⟨["in"], "lower", piece⟩ ⟨["in", "lower"], "gone", piece⟩ :=
    .piece (by decide) pushedOn List.mem_cons_self
  have loads : parting.Loads config none ⟨["in", "lower"], "gone", piece⟩ :=
    .tail (.single toLower) toGone
  have ran : Run parting config .any (startList config none)
      (.error (.unknownWorkflow "gone")) :=
    run_error_of_loads positive loads fun report => handle_of_error (by decide)
  refine ⟨evaluated, ran, fun alike => ?_⟩
  have other := (@run_last_evaluate parting config rfl none).mono fun _ _ _ => Takes.any_of_last
  rw [evaluated] at other
  obtain ⟨fault, same, inGraph⟩ := alike _ _ (.unknown "gone") ran other
  obtain rfl := Except.error.inj same
  cases inGraph

end PartSorting.Table
