import Mathlib.Algebra.GroupWithZero.Nat

/-! # Where an item is found among named loads

For a list of loads with names, `sightings` lists the loads in which an item occurs: the name of
each and the number of its occurrences there, in order.  A single sighting says at once that the
item is in exactly one load, under which name, and how often. -/

set_option autoImplicit false

namespace PartSorting

def sightedOnce (name : String) (occurrences : Nat) : List (String × Nat) :=
  if occurrences = 0 then [] else [(name, occurrences)]

theorem sightedOnce_zero (name : String) : sightedOnce name 0 = [] := rfl

theorem sightedOnce_pos (name : String) {occurrences : Nat} (present : 0 < occurrences) :
    sightedOnce name occurrences = [(name, occurrences)] :=
  if_neg (Nat.ne_of_gt present)

theorem eq_of_mem_sightedOnce {name target : String} {occurrences whole : Nat}
    (seen : (name, occurrences) ∈ sightedOnce target whole) :
    name = target ∧ occurrences = whole := by
  rcases Nat.eq_zero_or_pos whole with rfl | present
  · exact absurd seen List.not_mem_nil
  · rw [sightedOnce_pos target present] at seen
    exact Prod.mk.inj (List.mem_singleton.mp seen)

theorem sum_sightedOnce (name : String) (occurrences : Nat) :
    ((sightedOnce name occurrences).map Prod.snd).sum = occurrences := by
  rcases Nat.eq_zero_or_pos occurrences with rfl | present
  · rfl
  · rw [sightedOnce_pos name present]
    simp

/-- An item that is taken by the first of two names or left to the second is seen once. -/
theorem sightedOnce_append {taken : Prop} [Decidable taken] (first second : String)
    {whole hits rest : Nat} (hitsEq : hits = if taken then whole else 0)
    (restEq : rest = if taken then 0 else whole) :
    sightedOnce first hits ++ sightedOnce second rest =
      sightedOnce (if taken then first else second) whole := by
  by_cases isTaken : taken
  · rw [hitsEq, restEq, if_pos isTaken, if_pos isTaken, if_pos isTaken, sightedOnce_zero,
      List.append_nil]
  · rw [hitsEq, restEq, if_neg isTaken, if_neg isTaken, if_neg isTaken, sightedOnce_zero,
      List.nil_append]

section
variable {Load : Type} (occurs : Load → Nat)

/-- The names of the loads in which an item occurs, with the numbers of its occurrences. -/
def sightings (loads : List (String × Load)) : List (String × Nat) :=
  loads.filterMap fun named =>
    if occurs named.2 = 0 then none else some (named.1, occurs named.2)

theorem sightings_nil : sightings occurs [] = [] := rfl

theorem sightings_cons_of_zero {name : String} {load : Load} (absent : occurs load = 0)
    (loads : List (String × Load)) :
    sightings occurs ((name, load) :: loads) = sightings occurs loads := by
  simp only [sightings, List.filterMap_cons, absent, if_true]

theorem sightings_cons_of_pos (name : String) {load : Load} (present : 0 < occurs load)
    (loads : List (String × Load)) :
    sightings occurs ((name, load) :: loads) =
      (name, occurs load) :: sightings occurs loads := by
  simp only [sightings, List.filterMap_cons, Nat.ne_of_gt present, if_false]

theorem sightings_passed {full : Prop} [Decidable full] (name : String) {load : Load}
    (empty : ¬full → occurs load = 0) :
    sightings occurs (if full then [(name, load)] else []) = sightedOnce name (occurs load) := by
  by_cases isFull : full
  · rw [if_pos isFull]
    rcases Nat.eq_zero_or_pos (occurs load) with absent | present
    · rw [sightings_cons_of_zero occurs absent, absent, sightedOnce_zero, sightings_nil]
    · rw [sightings_cons_of_pos occurs name present, sightedOnce_pos name present, sightings_nil]
  · rw [if_neg isFull, empty isFull, sightedOnce_zero, sightings_nil]

theorem sightings_append (first second : List (String × Load)) :
    sightings occurs (first ++ second) = sightings occurs first ++ sightings occurs second :=
  List.filterMap_append

theorem sightings_reverse (loads : List (String × Load)) :
    sightings occurs loads.reverse = (sightings occurs loads).reverse :=
  List.filterMap_reverse

theorem sightings_filter (chosen : String → Bool) (loads : List (String × Load)) :
    sightings occurs (loads.filter fun named => chosen named.1) =
      (sightings occurs loads).filter fun seen => chosen seen.1 := by
  induction loads with
  | nil => rfl
  | cons named loads ih =>
      obtain ⟨name, load⟩ := named
      rcases Nat.eq_zero_or_pos (occurs load) with absent | present
      · rw [sightings_cons_of_zero occurs absent, ← ih]
        cases isChosen : chosen name
        · rw [List.filter_cons_of_neg (by simp [isChosen])]
        · rw [List.filter_cons_of_pos (by simp [isChosen]), sightings_cons_of_zero occurs absent]
      · rw [sightings_cons_of_pos occurs name present]
        cases isChosen : chosen name
        · rw [List.filter_cons_of_neg (by simp [isChosen]),
            List.filter_cons_of_neg (by simp [isChosen]), ih]
        · rw [List.filter_cons_of_pos (by simp [isChosen]),
            List.filter_cons_of_pos (by simp [isChosen]), sightings_cons_of_pos occurs name present,
            ih]

theorem mem_sightings_of_mem {name : String} {load : Load} {loads : List (String × Load)}
    (member : (name, load) ∈ loads) (present : 0 < occurs load) :
    (name, occurs load) ∈ sightings occurs loads := by
  apply List.mem_filterMap.mpr
  refine ⟨(name, load), member, ?_⟩
  simp only [Nat.ne_of_gt present, if_false]

theorem exists_of_mem_sightings {name : String} {occurrences : Nat} {loads : List (String × Load)}
    (seen : (name, occurrences) ∈ sightings occurs loads) :
    ∃ load, (name, load) ∈ loads ∧ occurs load = occurrences ∧ 0 < occurrences := by
  obtain ⟨⟨other, load⟩, member, sighted⟩ := List.mem_filterMap.mp seen
  dsimp only at sighted
  split at sighted
  · contradiction
  · rename_i present
    obtain ⟨rfl, rfl⟩ := Prod.mk.inj (Option.some.inj sighted)
    exact ⟨load, member, rfl, Nat.pos_of_ne_zero present⟩

theorem sum_sightings (loads : List (String × Load)) :
    ((sightings occurs loads).map Prod.snd).sum = (loads.map fun named => occurs named.2).sum := by
  induction loads with
  | nil => rfl
  | cons named loads ih =>
      obtain ⟨name, load⟩ := named
      rcases Nat.eq_zero_or_pos (occurs load) with absent | present
      · rw [sightings_cons_of_zero occurs absent, ih, List.map_cons, List.sum_cons, absent,
          Nat.zero_add]
      · rw [sightings_cons_of_pos occurs name present, List.map_cons, List.sum_cons, ih,
          List.map_cons, List.sum_cons]

theorem length_sightings (loads : List (String × Load)) :
    (sightings occurs loads).length =
      loads.countP fun named => decide (0 < occurs named.2) := by
  induction loads with
  | nil => rfl
  | cons named loads ih =>
      obtain ⟨name, load⟩ := named
      rcases Nat.eq_zero_or_pos (occurs load) with absent | present
      · rw [sightings_cons_of_zero occurs absent, ih, List.countP_cons_of_neg (by simp [absent])]
      · rw [sightings_cons_of_pos occurs name present, List.length_cons, ih,
          List.countP_cons_of_pos (by simp [present])]

end

end PartSorting
