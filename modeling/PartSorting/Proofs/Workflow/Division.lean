import PartSorting.Proofs.Box.Weight
import PartSorting.Proofs.Workflow.Sighting
import PartSorting.Workflow.Split

/-! # A workflow divides a box along the routes of its parts

Every part of the box is in exactly one piece, the one for the name to which the workflow sends
the part, and it occurs there as often as in the box.  No piece is empty. -/

set_option autoImplicit false

namespace PartSorting

structure Box.Occupied (scale : Interval) (box : Box) : Prop where
  within : Box.Within scale box
  volume_pos : 0 < Box.volume box

theorem Box.Occupied.exists_part {scale : Interval} {box : Box}
    (occupied : Box.Occupied scale box) : ∃ part, 0 < Box.weight box part :=
  (Box.volume_pos_iff occupied.within).mp occupied.volume_pos

namespace Workflow

def passOn (target : String) (box : Box) : List (String × Box) :=
  if 0 < Box.volume box then [(target, box)] else []

theorem mem_passOn {target : String} {box : Box} {piece : String × Box}
    (member : piece ∈ passOn target box) : piece = (target, box) ∧ 0 < Box.volume box := by
  simp only [passOn] at member
  split at member
  · rename_i positive
    exact ⟨List.mem_singleton.mp member, positive⟩
  · exact absurd member List.not_mem_nil

theorem length_passOn_le (target : String) (box : Box) : (passOn target box).length ≤ 1 := by
  simp only [passOn]
  split <;> simp

theorem sightings_passOn {scale : Interval} {box : Box} (within : Box.Within scale box)
    (target : String) (part : Part) :
    sightings (fun piece => Box.weight piece part) (passOn target box) =
      sightedOnce target (Box.weight box part) := by
  apply sightings_passed
  intro empty
  exact Box.weight_eq_zero_of_volume_eq_zero within empty part

/-- Stopping at an empty rest loses nothing: no part is left to sight. -/
theorem sightings_unless_empty {scale : Interval} {rest : Box} (within : Box.Within scale rest)
    {pieces : List (String × Box)} {target : String} {part : Part}
    (sighted : sightings (fun piece => Box.weight piece part) pieces =
      sightedOnce target (Box.weight rest part)) :
    sightings (fun piece => Box.weight piece part)
        (if Box.volume rest = 0 then [] else pieces) =
      sightedOnce target (Box.weight rest part) := by
  by_cases empty : Box.volume rest = 0
  · have absent := Box.weight_eq_zero_of_volume_eq_zero within (by omega) part
    rw [if_pos empty, absent, sightings_nil, sightedOnce_zero]
  · rw [if_neg empty, sighted]

theorem pieces_divideBy_nil (scale : Interval) (fallback : String) (box : Box) :
    (divideBy scale fallback [] box).pieces = passOn fallback box := by
  simp only [divideBy, passOn]
  split <;> rfl

theorem pieces_divideBy_cons (scale : Interval) (fallback : String) (rule : Rule)
    (rules : List Rule) (box : Box) :
    (divideBy scale fallback (rule :: rules) box).pieces =
      passOn rule.target (box.keep rule.condition.attr (rule.condition.window scale)) ++
        let rest := Box.drop scale box rule.condition.attr (rule.condition.window scale)
        if Box.volume rest = 0 then [] else (divideBy scale fallback rules rest).pieces := by
  simp only [divideBy, passOn]
  split <;> split <;> rfl

theorem occupied_of_mem_divideBy {scale : Interval} (fallback : String) (rules : List Rule)
    (box : Box) (within : Box.Within scale box) (piece : String × Box)
    (member : piece ∈ (divideBy scale fallback rules box).pieces) :
    Box.Occupied scale piece.2 := by
  induction rules generalizing box with
  | nil =>
      rw [pieces_divideBy_nil] at member
      obtain ⟨rfl, positive⟩ := mem_passOn member
      exact ⟨within, positive⟩
  | cons rule rules ih =>
      rw [pieces_divideBy_cons] at member
      rcases List.mem_append.mp member with matched | later
      · obtain ⟨rfl, positive⟩ := mem_passOn matched
        exact ⟨Box.within_keep within _ _, positive⟩
      · dsimp only at later
        split at later
        · exact absurd later List.not_mem_nil
        · exact ih _ (Box.within_drop within _ _) later

theorem mem_targets_of_mem_divideBy {scale : Interval} {fallback : String} {rules : List Rule}
    {box : Box} {piece : String × Box}
    (member : piece ∈ (divideBy scale fallback rules box).pieces) :
    piece.1 ∈ rules.map Rule.target ++ [fallback] := by
  induction rules generalizing box with
  | nil =>
      rw [pieces_divideBy_nil] at member
      obtain ⟨rfl, _⟩ := mem_passOn member
      exact List.mem_singleton_self _
  | cons rule rules ih =>
      rw [pieces_divideBy_cons] at member
      rcases List.mem_append.mp member with matched | later
      · obtain ⟨rfl, _⟩ := mem_passOn matched
        exact List.mem_cons_self
      · dsimp only at later
        split at later
        · exact absurd later List.not_mem_nil
        · exact List.mem_cons_of_mem _ (ih later)

theorem length_divideBy_le (scale : Interval) (fallback : String) (rules : List Rule)
    (box : Box) : (divideBy scale fallback rules box).pieces.length ≤ rules.length + 1 := by
  induction rules generalizing box with
  | nil =>
      rw [pieces_divideBy_nil]
      exact length_passOn_le fallback box
  | cons rule rules ih =>
      rw [pieces_divideBy_cons, List.length_append, List.length_cons]
      have first := length_passOn_le rule.target
        (box.keep rule.condition.attr (rule.condition.window scale))
      have later := ih (Box.drop scale box rule.condition.attr (rule.condition.window scale))
      dsimp only
      split
      · rw [List.length_nil]
        omega
      · omega

/-- The rules and the fallback together take every part of the box exactly once. -/
theorem sightings_divideBy {scale : Interval} (fallback : String) (rules : List Rule) (box : Box)
    (within : Box.Within scale box) (part : Part) :
    sightings (fun piece => Box.weight piece part) (divideBy scale fallback rules box).pieces =
      sightedOnce (routeBy fallback rules part) (Box.weight box part) := by
  induction rules generalizing box with
  | nil =>
      rw [pieces_divideBy_nil]
      exact sightings_passOn within fallback part
  | cons rule rules ih =>
      have hitsWithin := Box.within_keep within rule.condition.attr (rule.condition.window scale)
      have restWithin := Box.within_drop within rule.condition.attr (rule.condition.window scale)
      rw [pieces_divideBy_cons, sightings_append, sightings_passOn hitsWithin,
        sightings_unless_empty restWithin (ih _ restWithin), Box.weight_keep, Box.weight_drop]
      -- Off the scale a window says nothing about a part, but there the part does not occur.
      rcases Nat.eq_zero_or_pos (Box.weight box part) with absent | present
      · simp only [absent, ite_self, sightedOnce_zero, List.append_nil]
      · have inside := Box.weight_pos_iff.mp present
        have onScale := Box.onScale_of_mem within inside rule.condition.attr
        have readings := Box.mem_window_iff_admits within inside rule.condition
        rw [routeBy]
        apply sightedOnce_append
        · simp only [readings]
        · simp only [readings, onScale, true_and, ite_not]

end Workflow

end PartSorting
