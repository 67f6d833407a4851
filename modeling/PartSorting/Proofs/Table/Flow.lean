import PartSorting.Proofs.Table.Report
import PartSorting.Proofs.Trace.Pushes
import PartSorting.Proofs.Workflow.Partition

/-! # The pushes of an evaluation are a flow

At every workflow as much volume is pushed on as has come in, so what was pushed to a sink is what
the report says of it.  A ledger keeps the accounts of some loads: all that came of a load is in
its own ledger, and ledgers are joined. -/

set_option autoImplicit false

namespace PartSorting

theorem Box.totalVolume_eq_sum_map (boxes : List Box) :
    totalVolume boxes = (boxes.map volume).sum := by
  induction boxes with
  | nil => rfl
  | cons box boxes ih => rw [totalVolume, ih, List.map_cons, List.sum_cons]

def Box.volumeAt (loads : List (String × Box)) (name : String) : Int :=
  amountAt Prod.fst (fun load => Box.volume load.2) loads name

def Push.ofPiece (name : String) (piece : String × Box) : Push :=
  ⟨name, piece.1, Box.volume piece.2⟩

/-- The accounts of some loads that were swept: what comes in at a name, pushed there or standing
there as a load, is what goes out, pushed from there or delivered there.  Each load and each push
that is not at a sink is visited once. -/
structure Ledger (table : Table) (loads : List (String × Box)) (pushes : List Push)
    (deliveries : List (String × Box)) (visits : Nat) : Prop where
  positive : ∀ push ∈ pushes, 0 < push.volume
  fromNames : ∀ push ∈ pushes, push.source ∈ table.names
  atSinks : ∀ delivery ∈ deliveries, table.isSink delivery.1 = true
  balance : ∀ name, Push.inflow pushes name + Box.volumeAt loads name =
    Push.outflow pushes name + Box.volumeAt deliveries name
  visited : pushes.countP (fun push => !table.isSink push.target) +
    loads.countP (fun load => !table.isSink load.1) = visits

namespace Ledger

variable {table : Table} {loads others deliveries arrived pieces : List (String × Box)}
  {pushes later : List Push} {visits more : Nat} {name : String} {load : Box}

theorem nil (table : Table) : Ledger table [] [] [] 0 where
  positive _ member := absurd member List.not_mem_nil
  fromNames _ member := absurd member List.not_mem_nil
  atSinks _ member := absurd member List.not_mem_nil
  balance _ := rfl
  visited := rfl

theorem append (first : Ledger table loads pushes deliveries visits)
    (second : Ledger table others later arrived more) :
    Ledger table (loads ++ others) (pushes ++ later) (deliveries ++ arrived) (visits + more) where
  positive := List.forall_mem_append.mpr ⟨first.positive, second.positive⟩
  fromNames := List.forall_mem_append.mpr ⟨first.fromNames, second.fromNames⟩
  atSinks := List.forall_mem_append.mpr ⟨first.atSinks, second.atSinks⟩
  balance := by
    intro name
    have balance := first.balance name
    have balanceToo := second.balance name
    simp only [Push.inflow, Push.outflow, Box.volumeAt, amountAt_append] at balance balanceToo ⊢
    omega
  visited := by
    have visited := first.visited
    have visitedToo := second.visited
    simp only [List.countP_append]
    omega

theorem perm (ledger : Ledger table loads pushes deliveries visits) (same : loads.Perm others) :
    Ledger table others pushes deliveries visits where
  positive := ledger.positive
  fromNames := ledger.fromNames
  atSinks := ledger.atSinks
  balance := by
    intro name
    have balance := ledger.balance name
    rwa [Box.volumeAt, amountAt_perm same] at balance
  visited := by rw [← same.countP_eq, ledger.visited]

theorem atSink (isSink : table.isSink name = true) :
    Ledger table [(name, load)] [] [(name, load)] 0 where
  positive _ member := absurd member List.not_mem_nil
  fromNames _ member := absurd member List.not_mem_nil
  atSinks delivery member := by
    obtain rfl := List.mem_singleton.mp member
    exact isSink
  balance _ := rfl
  visited := by simp [isSink]

/-- One visit: a load is shared out in pieces, which are pushed on. -/
theorem visit (ledger : Ledger table pieces pushes deliveries visits) (named : name ∈ table.names)
    (positive : ∀ piece ∈ pieces, 0 < Box.volume piece.2)
    (conserved : Box.totalVolume (pieces.map Prod.snd) = Box.volume load) :
    Ledger table [(name, load)] (pieces.map (Push.ofPiece name) ++ pushes) deliveries
      (visits + 1) where
  positive := by
    apply List.forall_mem_append.mpr ⟨?_, ledger.positive⟩
    intro push member
    obtain ⟨piece, isPiece, rfl⟩ := List.mem_map.mp member
    exact positive piece isPiece
  fromNames := by
    apply List.forall_mem_append.mpr ⟨?_, ledger.fromNames⟩
    intro push member
    obtain ⟨piece, _, rfl⟩ := List.mem_map.mp member
    exact named
  atSinks := ledger.atSinks
  balance := by
    intro wanted
    have into : Push.inflow (pieces.map (Push.ofPiece name)) wanted = Box.volumeAt pieces wanted :=
      amountAt_map _ _ _
    have out : Push.outflow (pieces.map (Push.ofPiece name)) wanted =
        if name = wanted then Box.volume load else 0 := by
      rw [← conserved, Box.totalVolume_eq_sum_map, List.map_map]
      exact (amountAt_map _ _ _).trans (amountAt_const _ _ _)
    have standing : Box.volumeAt [(name, load)] wanted =
        if name = wanted then Box.volume load else 0 := amountAt_singleton _ _
    have balance := ledger.balance wanted
    simp only [Push.inflow, Push.outflow, amountAt_append] at into out balance ⊢
    omega
  visited := by
    have notSink := Table.isSink_of_mem_names named
    have visited := ledger.visited
    simp only [List.countP_append, List.countP_map, List.countP_singleton, notSink, Bool.not_false,
      if_true, ← visited]
    simp only [Function.comp_def, Push.ofPiece]
    omega

theorem flatMap {pushesOf : String × Box → List Push} {results : List (Arrivals Box)}
    (all : List.Forall₂ (fun piece result =>
      Ledger table [piece] (pushesOf piece) result.deliveries result.visits) pieces results) :
    Ledger table pieces (pieces.flatMap pushesOf) (results.flatMap Arrivals.deliveries)
      (results.map Arrivals.visits).sum := by
  induction all with
  | nil => exact .nil table
  | cons first _ ih => exact first.append ih

end Ledger

namespace Table

variable {table : Table} {config : Config} {box : Option Box} {detectCycles : Bool}
  {scale : Interval} {depth : Nat} {path : List String} {name : String}

theorem pushes_pushPieces {workflow : Workflow} {load : Box} {pieces : List (String × Box)}
    (divided : (pushPieces scale name workflow load).outcome = .ok pieces) :
    (pushPieces scale name workflow load).pushes = pieces.map (Push.ofPiece name) := by
  obtain rfl := eq_divide_of_pushPieces divided
  have prunes : ((workflow.divide scale load).prunes workflow.name).filterMap TraceEvent.push? =
      [] := by
    apply List.filterMap_eq_nil_iff.mpr
    intro event member
    obtain ⟨rule, _, rfl⟩ := List.mem_map.mp member
    rfl
  rw [pushPieces_of_written (cut_of_pushPieces divided).2 name, Traced.pushes,
    List.filterMap_append, prunes, List.nil_append, pushes, List.filterMap_map]
  exact List.filterMap_eq_map_iff_forall_eq_some.mpr fun piece _ => rfl

section Sweep
variable {Load : Type} {divide : Divider Load} {load : Load}

theorem pushes_of_arrive_none (arrived : table.arrive detectCycles path name = .ok none) :
    (table.sweepFrom detectCycles divide (depth + 1) path (name, load)).pushes = [] := by
  simp only [sweepFrom, arrived]
  rfl

theorem pushes_of_arrive_some {workflow : Workflow} {pieces : List (String × Load)}
    {results : List (Arrivals Load)}
    (arrived : table.arrive detectCycles path name = .ok (some workflow))
    (divided : (divide name workflow load).outcome = .ok pieces)
    (followed : List.Forall₂ (fun piece result =>
      (table.sweepFrom detectCycles divide depth (path ++ [name]) piece).outcome = .ok result)
      pieces.reverse results) :
    (table.sweepFrom detectCycles divide (depth + 1) path (name, load)).pushes =
      (divide name workflow load).pushes ++ pieces.reverse.flatMap fun piece =>
        (table.sweepFrom detectCycles divide depth (path ++ [name]) piece).pushes := by
  have followedAll : (pieces.reverse.mapM
      (table.sweepFrom detectCycles divide depth (path ++ [name]))).outcome = .ok results := by
    rw [Traced.outcome_mapM, Outcome.mapM_ok_of_forall₂ followed]
  simp only [sweepFrom, arrived]
  rw [Traced.pushes_bind divided, Traced.pushes_bind followedAll, Traced.pushes_pure,
    List.append_nil, Traced.pushes_mapM followed]

end Sweep

/-- The pushes of a finished sweep are the ledger of its load. -/
theorem ledger_sweepFrom {load : Box} {arrivals : Arrivals Box}
    (occupied : Box.Occupied scale load)
    (swept : (table.sweepFrom detectCycles (pushPieces scale) depth path (name, load)).outcome =
      .ok arrivals) :
    Ledger table [(name, load)]
      (table.sweepFrom detectCycles (pushPieces scale) depth path (name, load)).pushes
      arrivals.deliveries arrivals.visits := by
  induction depth generalizing path name load arrivals with
  | zero => contradiction
  | succ depth ih =>
      rcases sweepFrom_box_cases occupied.within swept with
        ⟨arrived, rfl⟩ | ⟨rest, workflow, results, depthEq, arrived, divided, followed, rfl⟩
      · rw [pushes_of_arrive_none arrived]
        exact .atSink (isSink_of_arrive arrived)
      · obtain rfl := Nat.succ.inj depthEq
        have joined := (Ledger.flatMap (followed.imp fun piece result both =>
          @ih _ piece.1 piece.2 result both.1 both.2)).perm (List.reverse_perm _)
        have named := mem_names_of_find? (name_of_arrive arrived).1
        have positive : ∀ piece ∈ (workflow.divide scale load).pieces, 0 < Box.volume piece.2 :=
          fun piece member =>
            (Workflow.occupied_of_mem_divideBy _ _ load occupied.within piece member).volume_pos
        rw [pushes_of_arrive_some arrived divided (followed.imp fun _ _ => And.right),
          pushes_pushPieces divided, Arrivals.deliveries_afterVisit, Arrivals.visits_afterVisit]
        exact joined.visit named positive (Workflow.totalVolume_pieces occupied.within)

/-- Pushes are a flow from an entry to the sinks: every volume is positive, what comes in at a name
that is not a sink goes out again, and the report says what has come to the sinks and, counting the
entry, how often a push has come to another name. -/
structure Flows (table : Table) (entry : String) (pushes : List Push) (report : RangeReport) :
    Prop where
  positive : ∀ push ∈ pushes, 0 < push.volume
  conserved : ∀ name, table.isSink name = false →
    Push.inflow pushes name + (if entry = name then report.start else 0) =
      Push.outflow pushes name
  accepted : Push.inflow pushes table.accept = report.accepted
  rejected : Push.inflow pushes table.reject = report.rejected
  visits : pushes.countP (fun push => !table.isSink push.target) + 1 = report.visits

theorem isSink_iff {name : String} :
    table.isSink name = true ↔ name = table.accept ∨ name = table.reject := by
  simp only [isSink, Bool.or_eq_true, beq_iff_eq]

theorem volumeAt_deliveries (distinct : table.accept ≠ table.reject) (start : Int)
    {arrivals : Arrivals Box}
    (atSinks : ∀ delivery ∈ arrivals.deliveries, table.isSink delivery.1 = true) :
    Box.volumeAt arrivals.deliveries table.accept = (table.reportOf start arrivals).accepted ∧
      Box.volumeAt arrivals.deliveries table.reject =
        (table.reportOf start arrivals).rejected := by
  have atKind : ∀ kind : String → Bool, Box.totalVolume (arrivals.boxesAt kind) =
      ((arrivals.deliveries.filter fun delivery => kind delivery.1).map
        fun delivery => Box.volume delivery.2).sum := by
    intro kind
    rw [Box.totalVolume_eq_sum_map, Arrivals.boxesAt, List.map_map]
    rfl
  have others : (arrivals.deliveries.filter fun delivery => delivery.1 == table.accept) =
      arrivals.deliveries.filter fun delivery => !(delivery.1 == table.reject) := by
    apply List.filter_congr
    intro delivery delivered
    rcases isSink_iff.mp (atSinks delivery delivered) with accept | reject
    · simp [accept, distinct]
    · simp [reject, distinct.symm]
  rw [reportOf_eq, atKind, atKind, Box.volumeAt, Box.volumeAt, amountAt, amountAt, others]
  exact ⟨rfl, rfl⟩

/-- A ledger of a load that is not at a sink is a flow from there. -/
theorem flows_of_ledger (distinct : table.accept ≠ table.reject) {pushes : List Push} {load : Box}
    {arrivals : Arrivals Box} (inside : table.isSink name = false)
    (ledger : Ledger table [(name, load)] pushes arrivals.deliveries arrivals.visits) :
    table.Flows name pushes (table.reportOf (Box.volume load) arrivals) := by
  have standing : ∀ wanted, Box.volumeAt [(name, load)] wanted =
      if name = wanted then Box.volume load else 0 := fun wanted => amountAt_singleton _ _
  have intoSink : ∀ sink, table.isSink sink = true →
      Push.inflow pushes sink = Box.volumeAt arrivals.deliveries sink := by
    intro sink isSink
    have elsewhere : name ≠ sink := by
      rintro rfl
      exact absurd (isSink.symm.trans inside) Bool.noConfusion
    have nothingOut : Push.outflow pushes sink = 0 := by
      apply amountAt_of_absent
      intro push member fromSink
      have notSink := isSink_of_mem_names (ledger.fromNames push member)
      rw [fromSink, isSink] at notSink
      contradiction
    have balance := ledger.balance sink
    rw [standing, if_neg elsewhere, nothingOut] at balance
    omega
  obtain ⟨accepted, rejected⟩ :=
    volumeAt_deliveries distinct (Box.volume load) ledger.atSinks
  refine ⟨ledger.positive, ?_, ?_, ?_, ?_⟩
  · intro wanted notSink
    have nothingThere : Box.volumeAt arrivals.deliveries wanted = 0 := by
      apply amountAt_of_absent
      rintro delivery delivered rfl
      exact absurd ((ledger.atSinks delivery delivered).symm.trans notSink) Bool.noConfusion
    have balance := ledger.balance wanted
    rw [standing, nothingThere, Int.add_zero] at balance
    exact balance
  · exact (intoSink _ (isSink_iff.mpr (.inl rfl))).trans accepted
  · exact (intoSink _ (isSink_iff.mpr (.inr rfl))).trans rejected
  · have visited := ledger.visited
    rw [List.countP_singleton, inside] at visited
    exact visited

/-- The pushes of an evaluation that has something to start with, at a name that is no sink, are a
flow that agrees with the report. -/
theorem flows_evaluate (distinct : table.accept ≠ table.reject) (proper : config.scale.Proper)
    (positive : 0 < Box.volume (startBox config box))
    (inside : table.isSink config.entry = false) {report : RangeReport}
    (evaluated : (table.evaluate config box).outcome = .ok report) :
    table.Flows config.entry (table.evaluate config box).pushes report := by
  obtain ⟨arrivals, rfl, ⟨empty, _⟩ | ⟨_, swept⟩⟩ := evaluate_ok_cases evaluated
  · exact absurd positive empty
  · have occupied : Box.Occupied config.scale (startBox config box) :=
      ⟨within_startBox proper box, positive⟩
    have same : (table.evaluate config box).pushes =
        (table.sweep config (pushPieces config.scale) (startBox config box)).pushes := by
      simp only [evaluate, positive, if_true]
      rw [Traced.pushes_bind swept, Traced.pushes_pure, List.append_nil]
    rw [same]
    exact flows_of_ledger distinct inside (ledger_sweepFrom occupied swept)

theorem flows_evaluate_rejoining :
    let config : Config := { Config.usual with scale := ⟨1, 4⟩ }
    let report : RangeReport :=
      ⟨256, 48, 208, [⟨[⟨3, 4⟩], [⟨3, 4⟩], [⟨1, 1⟩], [⟨1, 4⟩]⟩,
        ⟨[⟨1, 2⟩], [⟨1, 4⟩], [⟨1, 1⟩], [⟨1, 4⟩]⟩], 3⟩
    let pushes : List Push :=
      [⟨"in", "mid", 128⟩, ⟨"in", "mid", 64⟩, ⟨"in", "R", 64⟩, ⟨"mid", "A", 16⟩, ⟨"mid", "R", 48⟩,
        ⟨"mid", "A", 32⟩, ⟨"mid", "R", 96⟩]
    rejoining.accept ≠ rejoining.reject ∧ config.scale.Proper ∧
      0 < Box.volume (startBox config none) ∧ rejoining.isSink config.entry = false ∧
      (rejoining.evaluate config none).outcome = .ok report ∧
      (rejoining.evaluate config none).pushes = pushes ∧
      rejoining.Flows "in" pushes report := by
  intro config report pushes
  have distinct : rejoining.accept ≠ rejoining.reject := by decide
  have proper : config.scale.Proper := by decide
  have positive : 0 < Box.volume (startBox config none) := by decide
  have inside : rejoining.isSink config.entry = false := by decide
  have evaluated : (rejoining.evaluate config none).outcome = .ok report := by decide +kernel
  have pushed : (rejoining.evaluate config none).pushes = pushes := by decide +kernel
  have flows := flows_evaluate distinct proper positive inside evaluated
  rw [pushed] at flows
  exact ⟨distinct, proper, positive, inside, evaluated, pushed, flows⟩

end Table

end PartSorting
