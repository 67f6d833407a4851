import Mathlib.Algebra.GroupWithZero.Nat
import Mathlib.Logic.Relation
import PartSorting.Proofs.Trace.Sequence
import PartSorting.Table.Sweep

/-! # The runs of a sweep

`sweepFrom_ok_cases` and `sweepFrom_error_cases` say once what one visit of a sweep can do.  A
load in transit moves from a workflow to the targets of its pieces; what a division keeps true
holds of every load that is reached in this way, and of every load that is delivered. -/

set_option autoImplicit false

namespace PartSorting

namespace Arrivals

variable {Load : Type}

theorem deliveries_afterVisit (results : List (Arrivals Load)) :
    (afterVisit results).deliveries = results.flatMap Arrivals.deliveries := by
  induction results with
  | nil => rfl
  | cons result results ih => rw [List.flatMap_cons, ← ih]; rfl

theorem visits_afterVisit (results : List (Arrivals Load)) :
    (afterVisit results).visits = (results.map Arrivals.visits).sum + 1 := by
  induction results with
  | nil => rfl
  | cons result results ih =>
      rw [List.map_cons, List.sum_cons, Nat.add_assoc, ← ih]
      rfl

end Arrivals

/-- A load that has passed the names on a path and stands before another name. -/
structure Transit (Load : Type) where
  path : List String
  name : String
  load : Load

namespace Table

variable {Load : Type} {table : Table} {detectCycles : Bool} {divide : Divider Load}

theorem sweepFrom_ok_cases {depth : Nat} {path : List String} {name : String} {load : Load}
    {arrivals : Arrivals Load}
    (swept : (table.sweepFrom detectCycles divide depth path (name, load)).outcome =
      .ok arrivals) :
    (table.arrive detectCycles path name = .ok none ∧ arrivals = .atSink name load) ∨
      ∃ rest workflow pieces results, depth = rest + 1 ∧
        table.arrive detectCycles path name = .ok (some workflow) ∧
        (divide name workflow load).outcome = .ok pieces ∧
        List.Forall₂ (fun piece result =>
          (table.sweepFrom detectCycles divide rest (path ++ [name]) piece).outcome = .ok result)
          pieces.reverse results ∧
        arrivals = .afterVisit results := by
  cases depth with
  | zero => contradiction
  | succ rest =>
      simp only [sweepFrom] at swept
      cases arrived : table.arrive detectCycles path name with
      | error fault => simp [arrived, Traced.fail] at swept
      | ok next =>
          cases next with
          | none =>
              simp only [arrived, Traced.outcome_pure, Except.ok.injEq] at swept
              exact .inl ⟨rfl, swept.symm⟩
          | some workflow =>
              simp only [arrived, Traced.outcome_bind, Traced.outcome_mapM] at swept
              obtain ⟨pieces, divided, swept⟩ := Outcome.bind_ok swept
              obtain ⟨results, followed, swept⟩ := Outcome.bind_ok swept
              exact .inr ⟨rest, workflow, pieces, results, rfl, rfl, divided,
                Outcome.forall₂_of_mapM_ok followed, (Except.ok.inj swept).symm⟩

theorem sweepFrom_error_cases {depth : Nat} {path : List String} {name : String} {load : Load}
    {fault : Fault}
    (failed : (table.sweepFrom detectCycles divide depth path (name, load)).outcome =
      .error fault) :
    (depth = 0 ∧ fault = .endless (path ++ [name])) ∨
      ∃ rest, depth = rest + 1 ∧
        (table.arrive detectCycles path name = .error fault ∨
          ∃ workflow, table.arrive detectCycles path name = .ok (some workflow) ∧
            ((divide name workflow load).outcome = .error fault ∨
              ∃ pieces, (divide name workflow load).outcome = .ok pieces ∧ ∃ piece ∈ pieces,
                (table.sweepFrom detectCycles divide rest (path ++ [name]) piece).outcome =
                  .error fault)) := by
  cases depth with
  | zero =>
      simp only [sweepFrom, Traced.fail, Except.error.injEq] at failed
      exact .inl ⟨rfl, failed.symm⟩
  | succ rest =>
      refine .inr ⟨rest, rfl, ?_⟩
      simp only [sweepFrom] at failed
      cases arrived : table.arrive detectCycles path name with
      | error early =>
          simp only [arrived, Traced.fail, Except.error.injEq] at failed
          exact .inl (congrArg Except.error failed)
      | ok next =>
          cases next with
          | none => simp [arrived] at failed
          | some workflow =>
              refine .inr ⟨workflow, rfl, ?_⟩
              simp only [arrived, Traced.outcome_bind, Traced.outcome_mapM] at failed
              rcases Outcome.bind_error failed with divided | ⟨pieces, divided, failed⟩
              · exact .inl divided
              · rcases Outcome.bind_error failed with followed | ⟨_, _, failed⟩
                · obtain ⟨piece, member, follow⟩ := Outcome.exists_of_mapM_error followed
                  exact .inr ⟨pieces, divided, piece, List.mem_reverse.mp member, follow⟩
                · contradiction

/-- Sweeps are the same when the divisions are the same on all loads that they come to. -/
theorem sweepFrom_congr {other : Divider Load} {sound : Load → Prop}
    (same : ∀ name workflow load, sound load →
      divide name workflow load = other name workflow load)
    (kept : ∀ name workflow load pieces, sound load →
      (divide name workflow load).outcome = .ok pieces → ∀ piece ∈ pieces, sound piece.2)
    (depth : Nat) (path : List String) (name : String) (load : Load) (isSound : sound load) :
    table.sweepFrom detectCycles divide depth path (name, load) =
      table.sweepFrom detectCycles other depth path (name, load) := by
  induction depth generalizing path name load with
  | zero => rfl
  | succ depth ih =>
      simp only [sweepFrom]
      cases table.arrive detectCycles path name with
      | error fault => rfl
      | ok next =>
          cases next with
          | none => rfl
          | some workflow =>
              dsimp only
              rw [← same name workflow load isSound]
              apply Traced.bind_congr_of_ok
              intro pieces divided
              have sounds := kept name workflow load pieces isSound divided
              rw [Traced.mapM_congr fun piece member =>
                ih (path ++ [name]) piece.1 piece.2 (sounds piece (List.mem_reverse.mp member))]

/-- If each division gives one fault or what it gives in another sweep, then so does the sweep. -/
theorem sweepFrom_eq_error_or {other : Divider Load} {fault : Fault}
    (each : ∀ name workflow load, (divide name workflow load).outcome = .error fault ∨
      (divide name workflow load).outcome = (other name workflow load).outcome)
    (depth : Nat) (path : List String) (item : String × Load) :
    (table.sweepFrom detectCycles divide depth path item).outcome = .error fault ∨
      (table.sweepFrom detectCycles divide depth path item).outcome =
        (table.sweepFrom detectCycles other depth path item).outcome := by
  induction depth generalizing path item with
  | zero => exact .inr rfl
  | succ depth ih =>
      obtain ⟨name, load⟩ := item
      simp only [sweepFrom]
      cases table.arrive detectCycles path name with
      | error early => exact .inr rfl
      | ok next =>
          cases next with
          | none => exact .inr rfl
          | some workflow =>
              simp only [Traced.outcome_bind, Traced.outcome_mapM]
              rcases each name workflow load with undivided | same
              · rw [undivided]
                exact .inl rfl
              · rw [same]
                cases (other name workflow load).outcome with
                | error early => exact .inr rfl
                | ok pieces =>
                    dsimp only [bind, Except.bind]
                    rcases Outcome.mapM_eq_error_or fun piece (_ : piece ∈ pieces.reverse) =>
                      ih (path ++ [name]) piece with failed | sameResults
                    · left
                      rw [failed]
                    · right
                      rw [sameResults]

inductive Moves (table : Table) (detectCycles : Bool) (divide : Divider Load) :
    Transit Load → Transit Load → Prop where
  | piece {path : List String} {name : String} {load : Load} {workflow : Workflow}
      {pieces : List (String × Load)} {piece : String × Load}
      (arrived : table.arrive detectCycles path name = .ok (some workflow))
      (divided : (divide name workflow load).outcome = .ok pieces)
      (member : piece ∈ pieces) :
      Moves table detectCycles divide ⟨path, name, load⟩ ⟨path ++ [name], piece.1, piece.2⟩

abbrev Reaches (table : Table) (detectCycles : Bool) (divide : Divider Load) :
    Transit Load → Transit Load → Prop :=
  Relation.ReflTransGen (Moves table detectCycles divide)

theorem reaches_of_mem_deliveries {depth : Nat} {path : List String} {name : String}
    {load : Load} {arrivals : Arrivals Load} {delivery : String × Load}
    (swept : (table.sweepFrom detectCycles divide depth path (name, load)).outcome =
      .ok arrivals)
    (delivered : delivery ∈ arrivals.deliveries) :
    ∃ passed, Reaches table detectCycles divide ⟨path, name, load⟩
        ⟨passed, delivery.1, delivery.2⟩ ∧
      table.arrive detectCycles passed delivery.1 = .ok none := by
  induction depth generalizing path name load arrivals with
  | zero => contradiction
  | succ depth ih =>
      rcases sweepFrom_ok_cases swept with
        ⟨arrived, rfl⟩ |
          ⟨rest, workflow, pieces, results, depthEq, arrived, divided, followed, rfl⟩
      · obtain rfl := List.mem_singleton.mp delivered
        exact ⟨path, .refl, arrived⟩
      · obtain rfl := Nat.succ.inj depthEq
        rw [Arrivals.deliveries_afterVisit] at delivered
        obtain ⟨result, resultMember, delivered⟩ := List.mem_flatMap.mp delivered
        obtain ⟨piece, pieceMember, follow⟩ :=
          exists_of_forall₂_right followed resultMember
        obtain ⟨passed, reached, atSink⟩ := ih follow delivered
        have move := Moves.piece arrived divided (List.mem_reverse.mp pieceMember)
        exact ⟨passed, .head move reached, atSink⟩

/-- A sweep fails where a load that is reached cannot arrive or cannot be divided, unless its
depth does not suffice. -/
theorem reached_of_sweepFrom_error {depth : Nat} {path : List String} {name : String} {load : Load}
    {fault : Fault}
    (failed : (table.sweepFrom detectCycles divide depth path (name, load)).outcome =
      .error fault) :
    (∃ passed, fault = .endless passed) ∨
      ∃ last, Reaches table detectCycles divide ⟨path, name, load⟩ last ∧
        (table.arrive detectCycles last.path last.name = .error fault ∨
          ∃ workflow, table.arrive detectCycles last.path last.name = .ok (some workflow) ∧
            (divide last.name workflow last.load).outcome = .error fault) := by
  induction depth generalizing path name load with
  | zero =>
      rcases sweepFrom_error_cases failed with ⟨_, isEndless⟩ | ⟨_, impossible, _⟩
      · exact .inl ⟨_, isEndless⟩
      · contradiction
  | succ depth ih =>
      rcases sweepFrom_error_cases failed with ⟨impossible, _⟩ | ⟨rest, depthEq, cause⟩
      · contradiction
      · obtain rfl := Nat.succ.inj depthEq
        rcases cause with
          lost | ⟨workflow, arrived, undivided | ⟨pieces, divided, piece, member, swept⟩⟩
        · exact .inr ⟨_, .refl, .inl lost⟩
        · exact .inr ⟨_, .refl, .inr ⟨workflow, arrived, undivided⟩⟩
        · apply (ih swept).imp_right
          rintro ⟨last, reached, cause⟩
          exact ⟨last, .head (.piece arrived divided member) reached, cause⟩

theorem divided_of_swept {depth : Nat} {path : List String} {name : String} {load : Load}
    {arrivals : Arrivals Load} {workflow : Workflow}
    (arrived : table.arrive detectCycles path name = .ok (some workflow))
    (swept : (table.sweepFrom detectCycles divide depth path (name, load)).outcome =
      .ok arrivals) :
    ∃ pieces, (divide name workflow load).outcome = .ok pieces ∧
      ∀ piece ∈ pieces, ∃ rest result,
        (table.sweepFrom detectCycles divide rest (path ++ [name]) piece).outcome =
          .ok result := by
  rcases sweepFrom_ok_cases swept with
    ⟨atSink, _⟩ | ⟨rest, other, pieces, results, _, arrivedToo, divided, followed, _⟩
  · rw [arrived] at atSink
    exact absurd atSink (by simp)
  · rw [arrived] at arrivedToo
    obtain rfl := Option.some.inj (Except.ok.inj arrivedToo)
    refine ⟨pieces, divided, ?_⟩
    intro piece member
    obtain ⟨result, _, follow⟩ :=
      exists_of_forall₂_left followed (List.mem_reverse.mpr member)
    exact ⟨rest, result, follow⟩

/-- A finished sweep has swept all that is reached by divisions that give the same pieces. -/
theorem swept_of_reaches {other : Divider Load}
    (agrees : ∀ name workflow load pieces, (divide name workflow load).outcome = .ok pieces →
      (other name workflow load).outcome = .ok pieces)
    {first last : Transit Load} (reached : Reaches table detectCycles other first last)
    {depth : Nat} {arrivals : Arrivals Load}
    (swept : (table.sweepFrom detectCycles divide depth first.path
      (first.name, first.load)).outcome = .ok arrivals) :
    ∃ rest result, (table.sweepFrom detectCycles divide rest last.path
      (last.name, last.load)).outcome = .ok result := by
  induction reached with
  | refl => exact ⟨depth, arrivals, swept⟩
  | tail _ move ih =>
      obtain ⟨rest, result, sweptMiddle⟩ := ih
      cases move with
      | piece arrived cut member =>
          obtain ⟨pieces, divided, all⟩ := divided_of_swept arrived sweptMiddle
          have same := (agrees _ _ _ _ divided).symm.trans cut
          obtain rfl := Except.ok.inj same
          exact all _ member

end Table

end PartSorting
