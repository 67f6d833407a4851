import PartSorting.Proofs.Workflow.Pruning

/-! # The pieces of a divided box share it out

The pieces into which a workflow splits a box hold its parts and no others, each part in a single
piece and as often as in the box.  So their volumes add up to the volume of the box, and none of
them is empty.  A split has these pieces unless a rule that gets nothing has a threshold too long
to be reported. -/

set_option autoImplicit false

namespace PartSorting

/-- Named boxes hold the parts of a box and no others.  Each part is in a single one of them, the
one for its route, as often as in the box; none of them is empty. -/
structure Box.SharedOut (box : Box) (route : Part → String) (pieces : List (String × Box)) :
    Prop where
  once : ∀ part ∈ box,
    pieces.countP (fun piece => decide (part ∈ piece.2)) = 1 ∧
      ∀ piece ∈ pieces, part ∈ piece.2 →
        piece.1 = route part ∧ Box.weight piece.2 part = Box.weight box part
  outside : ∀ part, part ∉ box → ∀ piece ∈ pieces, part ∉ piece.2
  inhabited : ∀ piece ∈ pieces, 0 < Box.volume piece.2 ∧ ∃ part, part ∈ piece.2
  volume : Box.totalVolume (pieces.map Prod.snd) = Box.volume box

namespace Workflow

variable {scale : Interval} {fallback : String} {rules : List Rule} {box : Box}

/-- A part that is in a piece is in the box as often, and the piece is for its route. -/
theorem of_mem_piece (within : Box.Within scale box) {piece : String × Box}
    (member : piece ∈ (divideBy scale fallback rules box).pieces) {part : Part}
    (inside : part ∈ piece.2) :
    piece.1 = routeBy fallback rules part ∧ Box.weight piece.2 part = Box.weight box part := by
  have seen := mem_sightings_of_mem (fun box => Box.weight box part) member
    (Box.weight_pos_iff.mpr inside)
  rw [sightings_divideBy fallback rules box within part] at seen
  exact eq_of_mem_sightedOnce seen

theorem mem_box_of_mem_piece (within : Box.Within scale box) {piece : String × Box}
    (member : piece ∈ (divideBy scale fallback rules box).pieces) {part : Part}
    (inside : part ∈ piece.2) : part ∈ box := by
  have same := (of_mem_piece within member inside).2
  rw [← Box.weight_pos_iff] at inside ⊢
  omega

theorem countP_pieces (within : Box.Within scale box) {part : Part} (inside : part ∈ box) :
    (divideBy scale fallback rules box).pieces.countP
      (fun piece => decide (part ∈ piece.2)) = 1 := by
  have counted := length_sightings (fun box => Box.weight box part)
    (divideBy scale fallback rules box).pieces
  rw [sightings_divideBy fallback rules box within part,
    sightedOnce_pos _ (Box.weight_pos_iff.mpr inside), List.length_singleton] at counted
  simpa only [Box.weight_pos_iff] using counted.symm

theorem exists_piece (fallback : String) (rules : List Rule) (within : Box.Within scale box)
    {part : Part} (inside : part ∈ box) :
    ∃ piece ∈ (divideBy scale fallback rules box).pieces, part ∈ piece.2 := by
  have counted : (divideBy scale fallback rules box).pieces.countP
      (fun piece => decide (part ∈ piece.2)) = 1 := countP_pieces within inside
  obtain ⟨piece, member, inPiece⟩ := List.countP_pos_iff.mp (counted ▸ Nat.one_pos)
  exact ⟨piece, member, of_decide_eq_true inPiece⟩

theorem totalVolume_pieces (within : Box.Within scale box) :
    Box.totalVolume ((divideBy scale fallback rules box).pieces.map Prod.snd) =
      Box.volume box := by
  have pieceWithin : ∀ piece ∈ (divideBy scale fallback rules box).pieces.map Prod.snd,
      Box.Within scale piece := by
    intro piece member
    obtain ⟨named, namedMember, rfl⟩ := List.mem_map.mp member
    exact (occupied_of_mem_divideBy fallback rules box within named namedMember).within
  rw [Box.totalVolume_eq_sum pieceWithin, Box.volume_eq_sum within]
  apply Finset.sum_congr rfl
  intro part _
  have summed := sum_sightings (fun box => Box.weight box part)
    (divideBy scale fallback rules box).pieces
  rw [sightings_divideBy fallback rules box within part, sum_sightedOnce] at summed
  rw [List.map_map]
  exact congrArg Nat.cast summed.symm

theorem sharedOut_divide (workflow : Workflow) (within : Box.Within scale box) :
    Box.SharedOut box workflow.route (workflow.divide scale box).pieces where
  once := by
    intro part inside
    exact ⟨countP_pieces within inside, fun piece member => of_mem_piece within member⟩
  outside := by
    intro part outside piece member inside
    exact outside (mem_box_of_mem_piece within member inside)
  inhabited := by
    intro piece member
    have occupied := occupied_of_mem_divideBy _ _ box within piece member
    obtain ⟨part, occurs⟩ := occupied.exists_part
    exact ⟨occupied.volume_pos, part, Box.weight_pos_iff.mp occurs⟩
  volume := totalVolume_pieces within

/-- A workflow shares out a box within the scale along its route exactly if the thresholds of the
rules that get nothing of the box can be written.  A split that succeeds has shared out the box,
and one that fails has come to a number that is too long. -/
theorem sharedOut_split_iff (workflow : Workflow) (within : Box.Within scale box) :
    ((∃ pieces, (workflow.split scale box).outcome = .ok pieces ∧
        Box.SharedOut box workflow.route pieces) ↔
      ∀ rule, Idle workflow.rules box rule → Writable rule.condition.threshold) ∧
    (∀ pieces, (workflow.split scale box).outcome = .ok pieces →
      Box.SharedOut box workflow.route pieces) ∧
    (∀ fault, (workflow.split scale box).outcome = .error fault → fault = .integerTooLong) := by
  have sharedOut := sharedOut_divide workflow within
  rw [← prunesWritten_iff within, outcome_split]
  by_cases written : (workflow.divide scale box).PrunesWritten
  · rw [if_pos written]
    refine ⟨iff_of_true ⟨_, rfl, sharedOut⟩ written, ?_, ?_⟩
    · intro pieces split
      obtain rfl := Except.ok.inj split
      exact sharedOut
    · intro fault impossible
      contradiction
  · rw [if_neg written]
    refine ⟨iff_of_false ?_ written, ?_, ?_⟩
    · intro shared
      obtain ⟨pieces, impossible, _⟩ := shared
      contradiction
    · intro pieces impossible
      contradiction
    · intro fault failed
      exact (Except.error.inj failed).symm

/-- A workflow that tests `x` twice for the same target, and in between something that no part on
a small scale satisfies. -/
def retesting : Workflow :=
  ⟨"in", [⟨⟨.x, .lessThan, 4⟩, "mid"⟩, ⟨⟨.m, .greaterThan, 20⟩, "gone"⟩,
    ⟨⟨.x, .lessThan, 6⟩, "mid"⟩], "R"⟩

theorem sharedOut_split_iff_retesting :
    let box : Box := ⟨[⟨1, 5⟩, ⟨3, 9⟩], [⟨2, 8⟩], [⟨1, 1⟩], [⟨4, 4⟩, ⟨9, 9⟩]⟩
    let pieces : List (String × Box) :=
      [("mid", ⟨[⟨1, 3⟩, ⟨3, 3⟩], [⟨2, 8⟩], [⟨1, 1⟩], [⟨4, 4⟩, ⟨9, 9⟩]⟩),
        ("mid", ⟨[⟨4, 5⟩, ⟨4, 5⟩], [⟨2, 8⟩], [⟨1, 1⟩], [⟨4, 4⟩, ⟨9, 9⟩]⟩),
        ("R", ⟨[⟨6, 9⟩], [⟨2, 8⟩], [⟨1, 1⟩], [⟨4, 4⟩, ⟨9, 9⟩]⟩)]
    Box.Within ⟨1, 9⟩ box ∧ (retesting.split ⟨1, 9⟩ box).outcome = .ok pieces ∧
      Box.SharedOut box retesting.route pieces := by
  intro box pieces
  have within : Box.Within ⟨1, 9⟩ box := by
    intro i
    cases i <;> simp [box, PerAttribute.get, Intervals.Within, Interval.Proper]
  have split : (retesting.split ⟨1, 9⟩ box).outcome = .ok pieces := by decide +kernel
  exact ⟨within, split, (sharedOut_split_iff retesting within).2.1 pieces split⟩

def overshooting : Workflow :=
  ⟨"in", [⟨⟨.x, .greaterThan, outsize⟩, "A"⟩], "R"⟩

/-- All parts on a small scale go to the fallback, but the rule before it cannot be reported. -/
theorem split_overshooting :
    Box.Within ⟨1, 4⟩ (.full ⟨1, 4⟩) ∧
    (overshooting.divide ⟨1, 4⟩ (.full ⟨1, 4⟩)).pieces = [("R", .full ⟨1, 4⟩)] ∧
    (overshooting.split ⟨1, 4⟩ (.full ⟨1, 4⟩)).outcome = .error .integerTooLong ∧
    ¬∃ pieces, (overshooting.split ⟨1, 4⟩ (.full ⟨1, 4⟩)).outcome = .ok pieces ∧
      Box.SharedOut (.full ⟨1, 4⟩) overshooting.route pieces := by
  have failed : (overshooting.split ⟨1, 4⟩ (.full ⟨1, 4⟩)).outcome = .error .integerTooLong := by
    decide +kernel
  refine ⟨Box.within_full (by decide), by decide +kernel, failed, ?_⟩
  rw [failed]
  intro shared
  obtain ⟨pieces, impossible, _⟩ := shared
  cases impossible

end Workflow

end PartSorting
