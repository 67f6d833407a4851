import PartSorting.Proofs.Box.Intersection
import PartSorting.Proofs.Box.Volume
import PartSorting.Proofs.Interval.Complement
import PartSorting.Proofs.Table.Ranges

/-! # Volumes shrink on the way

No piece of a box is larger than the box, on every scale.  On a proper scale this is because each
part is only moved.  An improper scale holds no parts, but the box of the whole scale may have a
positive volume there; it is passed on unchanged as long as there are no rules, and lost at the
first rule.  So if the volume of a start box can be written, all later volumes can be. -/

set_option autoImplicit false

namespace PartSorting

theorem Writable.of_le {small large : Int} (written : Writable large) (nonneg : 0 ≤ small)
    (bounded : small ≤ large) : Writable small := by
  have zero : Writable 0 := by decide +kernel
  exact zero.of_between written nonneg bounded

namespace Box

/-- A box as it occurs in an evaluation: not empty, and within the scale unless it is the whole of
an improper one. -/
structure Usable (scale : Interval) (box : Box) : Prop where
  volume_pos : 0 < volume box
  shape : Within scale box ∨ ¬scale.Proper ∧ box = full scale

theorem volume_set_nil (box : Box) (i : Attribute) : volume (box.set i []) = 0 := by
  cases i <;> simp [volume, PerAttribute.set, Intervals.size]

theorem keep_full_of_improper {scale : Interval} (improper : ¬scale.Proper) (i : Attribute)
    (window : Interval) : keep (full scale) i window = (full scale).set i [] := by
  rw [keep, full, PerAttribute.get_const, Intervals.clip_singleton, Interval.inter?_comm,
    Interval.inter?_of_improper improper, Option.toList_none]

theorem drop_full_of_improper {scale : Interval} (improper : ¬scale.Proper) (i : Attribute)
    (interval : Interval) : drop scale (full scale) i interval = (full scale).set i [] := by
  rw [drop, Interval.complement_of_improper_scale improper, Intervals.inter_nil]

end Box

namespace Workflow

/-- The whole of an improper scale is passed on unchanged without rules, and is lost otherwise. -/
theorem pieces_of_improper {scale : Interval} (improper : ¬scale.Proper) (workflow : Workflow) :
    (workflow.divide scale (.full scale)).pieces =
      if workflow.rules = [] then passOn workflow.fallback (.full scale) else [] := by
  rw [divide]
  cases rules : workflow.rules with
  | nil => rw [pieces_divideBy_nil, if_pos rfl]
  | cons rule later =>
      rw [pieces_divideBy_cons, Box.keep_full_of_improper improper,
        Box.drop_full_of_improper improper, if_neg (List.cons_ne_nil rule later)]
      simp only [passOn, Box.volume_set_nil, Int.lt_irrefl, if_false, if_true, List.append_nil]

theorem piece_of_improper {scale : Interval} (improper : ¬scale.Proper) {workflow : Workflow}
    {piece : String × Box} (member : piece ∈ (workflow.divide scale (.full scale)).pieces) :
    piece = (workflow.fallback, .full scale) ∧ 0 < Box.volume (.full scale) := by
  rw [pieces_of_improper improper] at member
  split at member
  · exact mem_passOn member
  · exact absurd member List.not_mem_nil

theorem usable_of_mem_divide {scale : Interval} {box : Box} (usable : Box.Usable scale box)
    {workflow : Workflow} {piece : String × Box}
    (member : piece ∈ (workflow.divide scale box).pieces) :
    Box.Usable scale piece.2 ∧ Box.volume piece.2 ≤ Box.volume box := by
  obtain ⟨positive, within | ⟨improper, rfl⟩⟩ := usable
  · have faithful := Table.faithful_cutPieces scale
    have occupied : Box.Occupied scale box := ⟨within, positive⟩
    have cut := Table.outcome_cutPieces scale workflow.name workflow box
    have pieceOccupied : Box.Occupied scale piece.2 :=
      faithful.kept _ _ _ _ occupied cut piece member
    refine ⟨⟨pieceOccupied.volume_pos, .inl pieceOccupied.within⟩, ?_⟩
    exact Box.volume_le_of_weight_le pieceOccupied.within within
      fun part => faithful.piece_le occupied cut member part
  · obtain ⟨rfl, piecePositive⟩ := piece_of_improper improper member
    exact ⟨⟨piecePositive, .inr ⟨improper, rfl⟩⟩, Int.le_refl _⟩

end Workflow

namespace Table

variable {table : Table} {config : Config} {box : Option Box}

theorem usable_startBox (positive : 0 < Box.volume (startBox config box)) :
    Box.Usable config.scale (startBox config box) := by
  refine ⟨positive, ?_⟩
  cases box with
  | some box => exact .inl (Box.within_inter_full _ box)
  | none =>
      by_cases proper : config.scale.Proper
      · exact .inl (Box.within_full proper)
      · exact .inr ⟨proper, rfl⟩

theorem usable_of_reaches {detectCycles : Bool} {scale : Interval} {first last : Transit Box}
    (reached : Reaches table detectCycles (cutPieces scale) first last)
    (usable : Box.Usable scale first.load) :
    Box.Usable scale last.load ∧ Box.volume last.load ≤ Box.volume first.load := by
  induction reached with
  | refl => exact ⟨usable, Int.le_refl _⟩
  | tail _ move ih =>
      obtain ⟨middleUsable, smaller⟩ := ih
      cases move with
      | piece _ divided member =>
          obtain rfl := Except.ok.inj divided
          obtain ⟨pieceUsable, pieceSmaller⟩ := Workflow.usable_of_mem_divide middleUsable member
          exact ⟨pieceUsable, Int.le_trans pieceSmaller smaller⟩

end Table

end PartSorting
