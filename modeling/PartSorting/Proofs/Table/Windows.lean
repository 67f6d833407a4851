import PartSorting.Proofs.Table.Report
import PartSorting.Proofs.Workflow.Decision

/-! # Accepted boxes are the start box seen through windows

On its way a box is only ever kept to the windows of conditions, those of the rules that were tried
on its parts or their opposites.  So whatever arrives is the start box seen through one window for
each attribute.  No list of intervals is broken up on the way. -/

set_option autoImplicit false

namespace PartSorting

namespace Table

variable {table : Table} {config : Config} {box : Option Box} {detectCycles : Bool}

def triedAt (table : Table) (part : Part) (name : String) : List Rule :=
  match table.find? name with
  | some workflow => Workflow.tried workflow.rules part
  | none => []

def triedAlong (table : Table) (part : Part) (path : List String) : List Rule :=
  path.flatMap (table.triedAt part)

/-- The conditions that were decided on a part along a path. -/
def decisionsAlong (table : Table) (part : Part) (path : List String) : List Condition :=
  (table.triedAlong part path).map fun rule => rule.condition.decided part

theorem decisionsAlong_cons {part : Part} {name : String} {workflow : Workflow}
    (found : table.find? name = some workflow) (path : List String) :
    table.decisionsAlong part (name :: path) =
      Workflow.decisions workflow.rules part ++ table.decisionsAlong part path := by
  simp only [decisionsAlong, triedAlong, List.flatMap_cons, triedAt, found, List.map_append,
    Workflow.decisions]

/-- What is delivered is the load kept to what was decided on the way of any of its parts. -/
theorem delivered_eq_keepAll {scale : Interval} {depth : Nat} {path : List String}
    {name : String} {load : Box} {arrivals : Arrivals Box} (within : Box.Within scale load)
    (swept : (table.sweepFrom detectCycles (pushPieces scale) depth path (name, load)).outcome =
      .ok arrivals)
    {delivery : String × Box} (delivered : delivery ∈ arrivals.deliveries) {part : Part}
    (inside : part ∈ delivery.2) :
    ∃ verdict passed, table.walkFrom detectCycles part depth path name = .ok verdict ∧
      verdict.path = path ++ passed ∧
      delivery.2 = load.keepAll scale (table.decisionsAlong part passed) := by
  induction depth generalizing path name load arrivals with
  | zero => contradiction
  | succ depth ih =>
      rcases sweepFrom_ok_cases swept with
        ⟨arrived, rfl⟩ | ⟨rest, workflow, pieces, results, depthEq, arrived, divided, followed, rfl⟩
      · obtain rfl := List.mem_singleton.mp delivered
        exact ⟨_, [], walkFrom_of_arrive_none arrived, (List.append_nil path).symm, rfl⟩
      · obtain rfl := Nat.succ.inj depthEq
        obtain rfl := eq_divide_of_pushPieces divided
        rw [Arrivals.deliveries_afterVisit] at delivered
        obtain ⟨result, resultMember, delivered⟩ := List.mem_flatMap.mp delivered
        obtain ⟨piece, pieceMember, follow⟩ := exists_of_forall₂_right followed resultMember
        have member := List.mem_reverse.mp pieceMember
        have pieceWithin := within_of_pushPieces within divided piece member
        obtain ⟨verdict, passed, walked, samePath, kept⟩ := ih pieceWithin follow delivered
        have inPiece : part ∈ piece.2 := by
          rw [kept] at inside
          exact Box.mem_of_mem_keepAll inside
        have routed := (Workflow.of_mem_piece within member inPiece).1
        refine ⟨verdict, name :: passed, ?_, ?_, ?_⟩
        · rw [walkFrom_of_arrive_some arrived, ← walked, routed]
          rfl
        · rw [samePath, List.append_assoc, List.singleton_append]
        · rw [kept, Workflow.piece_eq_keepAll within member inPiece,
            decisionsAlong_cons (name_of_arrive arrived).1, Box.keepAll_append]

/-- A box is another one seen through one window for each attribute, and shows of an attribute that
was never tested what the other shows. -/
structure SeenThrough (table : Table) (config : Config) (start seen : Box) : Prop where
  windows : ∃ windows : PerAttribute Interval, ∀ i,
    seen.get i = Intervals.clip (start.get i) (windows.get i)
  unfragmented : ∀ i, Intervals.Unfragmented (start.get i) (seen.get i)
  inhabited : ∃ part, part ∈ seen
  untested : ∀ part ∈ seen, ∃ verdict, table.walk config part = .ok verdict ∧
    ∀ i, (∀ rule ∈ table.triedAlong part verdict.path, rule.condition.attr ≠ i) →
      seen.get i = start.get i

theorem seenThrough_of_delivered (occupied : Box.Occupied config.scale (startBox config box))
    {arrivals : Arrivals Box}
    (swept : (table.sweep config (pushPieces config.scale) (startBox config box)).outcome =
      .ok arrivals)
    {delivery : String × Box} (delivered : delivery ∈ arrivals.deliveries) :
    SeenThrough table config (startBox config box) delivery.2 := by
  have within := occupied.within
  have shows : ∀ part ∈ delivery.2, ∃ verdict, table.walk config part = .ok verdict ∧
      ∀ i, delivery.2.get i = Intervals.clip ((startBox config box).get i)
        (Condition.commonWindow config.scale i (table.decisionsAlong part verdict.path)) := by
    intro part inside
    obtain ⟨verdict, passed, walked, samePath, kept⟩ :=
      delivered_eq_keepAll within swept delivered inside
    rw [List.nil_append] at samePath
    refine ⟨verdict, walked, fun i => ?_⟩
    rw [samePath, ← Box.get_keepAll within, ← kept]
  obtain ⟨part, occurs⟩ := (occupied_of_mem_deliveries occupied swept _ delivered).exists_part
  have inside := Box.weight_pos_iff.mp occurs
  obtain ⟨verdict, _, seen⟩ := shows part inside
  refine ⟨⟨.ofFn fun i => Condition.commonWindow config.scale i
    (table.decisionsAlong part verdict.path), ?_⟩, ?_, ⟨part, inside⟩, ?_⟩
  · intro i
    rw [PerAttribute.get_ofFn]
    exact seen i
  · intro i
    rw [seen i]
    exact Intervals.unfragmented_clip _ _
  · intro other otherInside
    obtain ⟨otherVerdict, classified, seenToo⟩ := shows other otherInside
    refine ⟨otherVerdict, classified, fun i untested => ?_⟩
    have noWindow : ∀ condition ∈ table.decisionsAlong other otherVerdict.path,
        condition.attr ≠ i := by
      intro condition member
      obtain ⟨rule, tried, rfl⟩ := List.mem_map.mp member
      rw [Condition.attr_decided]
      exact untested rule tried
    rw [seenToo i, Condition.commonWindow_of_untested noWindow]
    exact Intervals.clip_of_within (within i) (Int.le_refl _) (Int.le_refl _)

/-- Every accepted box is the start box seen through one window for each attribute; if this is the
whole scale, a single interval is left of each attribute. -/
theorem seenThrough_evaluate (proper : config.scale.Proper) {report : RangeReport}
    (evaluated : (table.evaluate config box).outcome = .ok report) :
    ∀ seen ∈ report.boxes,
      SeenThrough table config (startBox config box) seen ∧
        (box = none → ∀ i, ∃ interval, seen.get i = [interval]) := by
  intro seen accepted
  obtain ⟨arrivals, rfl, ⟨_, rfl⟩ | ⟨positive, swept⟩⟩ := evaluate_ok_cases evaluated
  · rw [reportOf_eq] at accepted
    exact absurd accepted List.not_mem_nil
  · rw [reportOf_eq] at accepted
    obtain ⟨delivery, chosen, rfl⟩ := List.mem_map.mp accepted
    have through := seenThrough_of_delivered ⟨within_startBox proper box, positive⟩ swept
      (List.mem_of_mem_filter chosen)
    refine ⟨through, ?_⟩
    rintro rfl i
    obtain ⟨part, inside⟩ := through.inhabited
    obtain ⟨interval, member, _⟩ := inside i
    have short : (delivery.2.get i).length ≤ 1 := by
      have shorter := (through.unfragmented i).length_le
      rw [startBox, Box.full, PerAttribute.get_const] at shorter
      exact shorter
    have single := Nat.le_antisymm short (List.length_pos_of_mem member)
    exact List.length_eq_one_iff.mp single

theorem seenThrough_evaluate_twoStage :
    let config : Config := { Config.usual with scale := ⟨1, 4⟩ }
    let box : Box := ⟨[⟨1, 3⟩, ⟨2, 9⟩, ⟨5, 4⟩], [⟨1, 4⟩], [⟨2, 2⟩], [⟨0, 1⟩]⟩
    let seen : Box := ⟨[⟨1, 2⟩, ⟨2, 2⟩], [⟨3, 4⟩], [⟨2, 2⟩], [⟨1, 1⟩]⟩
    config.scale.Proper ∧
    (twoStage.evaluate config (some box)).outcome = .ok ⟨24, 6, 18, [seen], 2⟩ ∧
    SeenThrough twoStage config (startBox config (some box)) seen := by
  intro config box seen
  have proper : config.scale.Proper := by decide
  have evaluated : (twoStage.evaluate config (some box)).outcome =
      .ok ⟨24, 6, 18, [seen], 2⟩ := by
    decide +kernel
  have through := seenThrough_evaluate proper evaluated seen (List.mem_singleton_self seen)
  exact ⟨proper, evaluated, through.1⟩

end Table

end PartSorting
