import PartSorting.Proofs.Table.Sweep
import PartSorting.Proofs.Table.Walk
import PartSorting.Proofs.Workflow.Sighting

/-! # A sweep delivers every item where its walk ends

A load holds items, each of which stands for a part.  When every division sends each item along
the route of its part, then a finished sweep has each item in exactly one delivery, at the sink
where the walk of its part ends, and a sweep that fails does so as the walk of one of its items,
unless a division failed. -/

set_option autoImplicit false

namespace PartSorting

/-- Loads that satisfy `sound` hold an item, and a division of such a load gives such loads, each
item of the load being in exactly one of them, the one for the route of its part. -/
structure Faithful {Load Item : Type} (divide : Divider Load) (sound : Load → Prop)
    (occurs : Item → Load → Nat) (part : Item → Part) : Prop where
  inhabited : ∀ load, sound load → ∃ item, 0 < occurs item load
  kept : ∀ name workflow load pieces, sound load →
    (divide name workflow load).outcome = .ok pieces → ∀ piece ∈ pieces, sound piece.2
  routed : ∀ name workflow load pieces, sound load →
    (divide name workflow load).outcome = .ok pieces → ∀ item,
      sightings (occurs item) pieces =
        sightedOnce (workflow.route (part item)) (occurs item load)

/-- What is sighted in the end of an item that occurs a number of times: nothing if it does not
occur, and otherwise one load with all its occurrences, at the terminal of its walk. -/
def SightedAtEnd (walk : Except Fault Verdict) (occurrences : Nat)
    (seen : List (String × Nat)) : Prop :=
  (occurrences = 0 → seen = []) ∧
    (0 < occurrences → ∃ verdict, walk = .ok verdict ∧ seen = [(verdict.terminal, occurrences)])

namespace SightedAtEnd

variable {Load : Type} {walk : Except Fault Verdict} {occurrences : Nat} {occurs : Load → Nat}
  {loads : List (String × Load)}

theorem of_mem (sighted : SightedAtEnd walk occurrences (sightings occurs loads))
    {name : String} {load : Load} (member : (name, load) ∈ loads) (present : 0 < occurs load) :
    occurs load = occurrences ∧ ∃ verdict, walk = .ok verdict ∧ name = verdict.terminal := by
  have seen := mem_sightings_of_mem occurs member present
  rcases Nat.eq_zero_or_pos occurrences with absent | occurring
  · rw [sighted.1 absent] at seen
    exact absurd seen List.not_mem_nil
  · obtain ⟨verdict, walked, single⟩ := sighted.2 occurring
    rw [single] at seen
    obtain ⟨atTerminal, same⟩ := Prod.mk.inj (List.mem_singleton.mp seen)
    exact ⟨same, verdict, walked, atTerminal⟩

theorem exists_mem (sighted : SightedAtEnd walk occurrences (sightings occurs loads))
    (occurring : 0 < occurrences) :
    ∃ verdict load, walk = .ok verdict ∧ (verdict.terminal, load) ∈ loads ∧ 0 < occurs load := by
  obtain ⟨verdict, walked, single⟩ := sighted.2 occurring
  have seen : (verdict.terminal, occurrences) ∈ sightings occurs loads := by
    rw [single]
    exact List.mem_singleton_self _
  obtain ⟨load, member, same, _⟩ := exists_of_mem_sightings occurs seen
  exact ⟨verdict, load, walked, member, by omega⟩

end SightedAtEnd

namespace Faithful

variable {Load Item : Type} {divide : Divider Load} {sound : Load → Prop}
  {occurs : Item → Load → Nat} {part : Item → Part}

theorem piece_of_item (faithful : Faithful divide sound occurs part) {name : String}
    {workflow : Workflow} {load : Load} {pieces : List (String × Load)} (isSound : sound load)
    (divided : (divide name workflow load).outcome = .ok pieces) {piece : String × Load}
    (member : piece ∈ pieces) {item : Item} (present : 0 < occurs item piece.2) :
    piece.1 = workflow.route (part item) ∧ occurs item piece.2 = occurs item load := by
  have seen := mem_sightings_of_mem (occurs item) member present
  rw [faithful.routed name workflow load pieces isSound divided item] at seen
  exact eq_of_mem_sightedOnce seen

theorem piece_le (faithful : Faithful divide sound occurs part) {name : String}
    {workflow : Workflow} {load : Load} {pieces : List (String × Load)} (isSound : sound load)
    (divided : (divide name workflow load).outcome = .ok pieces) {piece : String × Load}
    (member : piece ∈ pieces) (item : Item) : occurs item piece.2 ≤ occurs item load := by
  rcases Nat.eq_zero_or_pos (occurs item piece.2) with absent | present
  · omega
  · have same := (faithful.piece_of_item isSound divided member present).2
    omega

/-- A divider that gives no other pieces than a faithful one, if it gives any, is faithful. -/
theorem of_ok (faithful : Faithful divide sound occurs part) {other : Divider Load}
    (agrees : ∀ name workflow load pieces, (other name workflow load).outcome = .ok pieces →
      (divide name workflow load).outcome = .ok pieces) :
    Faithful other sound occurs part where
  inhabited := faithful.inhabited
  kept := by
    intro name workflow load pieces isSound divided
    exact faithful.kept name workflow load pieces isSound (agrees _ _ _ _ divided)
  routed := by
    intro name workflow load pieces isSound divided
    exact faithful.routed name workflow load pieces isSound (agrees _ _ _ _ divided)

theorem of_reaches (faithful : Faithful divide sound occurs part) {table : Table}
    {detectCycles : Bool} {first last : Transit Load}
    (reached : Table.Reaches table detectCycles divide first last) (isSound : sound first.load) :
    sound last.load ∧ ∀ item, occurs item last.load ≤ occurs item first.load := by
  induction reached with
  | refl => exact ⟨isSound, fun item => Nat.le_refl _⟩
  | tail _ move ih =>
      obtain ⟨middleSound, lighter⟩ := ih
      cases move with
      | piece _ divided member =>
          refine ⟨faithful.kept _ _ _ _ middleSound divided _ member, ?_⟩
          intro item
          exact Nat.le_trans (faithful.piece_le middleSound divided member item) (lighter item)

end Faithful

theorem sighted_flatMap {Load : Type} {occurs : Load → Nat}
    (walk : String → Except Fault Verdict) {pieces : List (String × Load)}
    {results : List (Arrivals Load)}
    (all : List.Forall₂ (fun piece result =>
      SightedAtEnd (walk piece.1) (occurs piece.2) (sightings occurs result.deliveries))
      pieces results) :
    (sightings occurs pieces = [] →
      sightings occurs (results.flatMap Arrivals.deliveries) = []) ∧
    (∀ target occurrences, sightings occurs pieces = [(target, occurrences)] →
      ∃ verdict, walk target = .ok verdict ∧
        sightings occurs (results.flatMap Arrivals.deliveries) =
          [(verdict.terminal, occurrences)]) := by
  induction all with
  | nil => exact ⟨fun _ => rfl, fun _ _ single => absurd single (by simp [sightings_nil])⟩
  | @cons piece result pieces results first _ ih =>
      obtain ⟨name, load⟩ := piece
      obtain ⟨noneLater, oneLater⟩ := ih
      rw [List.flatMap_cons, sightings_append]
      rcases Nat.eq_zero_or_pos (occurs load) with absent | present
      · rw [sightings_cons_of_zero occurs absent, first.1 absent, List.nil_append]
        exact ⟨noneLater, oneLater⟩
      · rw [sightings_cons_of_pos occurs name present]
        constructor
        · intro empty
          exact absurd empty (List.cons_ne_nil _ _)
        · intro target occurrences single
          obtain ⟨same, empty⟩ := List.cons.inj single
          obtain ⟨rfl, rfl⟩ := Prod.mk.inj same
          obtain ⟨verdict, walked, seen⟩ := first.2 present
          refine ⟨verdict, walked, ?_⟩
          rw [seen, noneLater empty, List.append_nil]

namespace Table

variable {Load Item : Type} {table : Table} {detectCycles : Bool} {divide : Divider Load}
  {sound : Load → Prop} {occurs : Item → Load → Nat} {part : Item → Part}

/-- After a finished sweep each item of the load is sighted once, where its walk has ended. -/
theorem sighted_sweepFrom (faithful : Faithful divide sound occurs part)
    (depth : Nat) (path : List String) (name : String) (load : Load) (arrivals : Arrivals Load)
    (isSound : sound load)
    (swept : (table.sweepFrom detectCycles divide depth path (name, load)).outcome =
      .ok arrivals) (item : Item) :
    SightedAtEnd (table.walkFrom detectCycles (part item) depth path name) (occurs item load)
      (sightings (occurs item) arrivals.deliveries) := by
  induction depth generalizing path name load arrivals with
  | zero => contradiction
  | succ depth ih =>
      rcases sweepFrom_ok_cases swept with
        ⟨arrived, rfl⟩ |
          ⟨rest, workflow, pieces, results, depthEq, arrived, divided, followed, rfl⟩
      · rw [walkFrom_of_arrive_none arrived]
        constructor
        · intro absent
          exact sightings_cons_of_zero (occurs item) absent []
        · intro present
          exact ⟨_, rfl, sightings_cons_of_pos (occurs item) name present []⟩
      · obtain rfl := Nat.succ.inj depthEq
        rw [walkFrom_of_arrive_some arrived, Arrivals.deliveries_afterVisit]
        have sounds : ∀ piece ∈ pieces.reverse, sound piece.2 := fun piece member =>
          faithful.kept name workflow load pieces isSound divided piece
            (List.mem_reverse.mp member)
        have all := ((List.forall₂_and_left _ _).mpr ⟨sounds, followed⟩).imp
          fun piece result both => ih (path ++ [name]) piece.1 piece.2 result both.1 both.2
        obtain ⟨noneSeen, oneSeen⟩ := sighted_flatMap
          (table.walkFrom detectCycles (part item) depth (path ++ [name])) all
        have seen := faithful.routed name workflow load pieces isSound divided item
        rw [sightings_reverse] at noneSeen oneSeen
        constructor
        · intro absent
          rw [absent, sightedOnce_zero] at seen
          exact noneSeen (by rw [seen]; rfl)
        · intro present
          rw [sightedOnce_pos _ present] at seen
          exact oneSeen _ _ (by rw [seen]; rfl)

/-- A sweep fails as the walk of an item of the load fails, or because a division fails. -/
theorem failed_walk_of_sweepFrom (faithful : Faithful divide sound occurs part)
    (depth : Nat) (path : List String) (name : String) (load : Load) (fault : Fault)
    (isSound : sound load)
    (failed : (table.sweepFrom detectCycles divide depth path (name, load)).outcome =
      .error fault) :
    (∃ item, 0 < occurs item load ∧
      table.walkFrom detectCycles (part item) depth path name = .error fault) ∨
    ∃ last workflow, Reaches table detectCycles divide ⟨path, name, load⟩ last ∧
      table.arrive detectCycles last.path last.name = .ok (some workflow) ∧
      (divide last.name workflow last.load).outcome = .error fault := by
  induction depth generalizing path name load with
  | zero =>
      rcases sweepFrom_error_cases failed with ⟨_, rfl⟩ | ⟨_, impossible, _⟩
      · obtain ⟨item, present⟩ := faithful.inhabited load isSound
        exact .inl ⟨item, present, rfl⟩
      · contradiction
  | succ depth ih =>
      rcases sweepFrom_error_cases failed with
        ⟨impossible, _⟩ | ⟨rest, depthEq, arrived | ⟨workflow, arrived, cause⟩⟩
      · contradiction
      · obtain ⟨item, present⟩ := faithful.inhabited load isSound
        exact .inl ⟨item, present, walkFrom_of_arrive_error arrived⟩
      · obtain rfl := Nat.succ.inj depthEq
        rcases cause with undivided | ⟨pieces, divided, piece, member, follow⟩
        · exact .inr ⟨_, workflow, .refl, arrived, undivided⟩
        · have pieceSound := faithful.kept name workflow load pieces isSound divided piece member
          rcases ih (path ++ [name]) piece.1 piece.2 pieceSound follow with
            ⟨item, present, walked⟩ | ⟨last, other, reached, later⟩
          · obtain ⟨target, same⟩ := faithful.piece_of_item isSound divided member present
            rw [target] at walked
            rw [same] at present
            exact .inl ⟨item, present, (walkFrom_of_arrive_some arrived).trans walked⟩
          · exact .inr ⟨last, other, .head (.piece arrived divided member) reached, later⟩

end Table

end PartSorting
