import PartSorting.Proofs.Workflow.Partition

/-! # The rule that decides on a part

A workflow decides on a part by the first of its rules that admits the part, or by its fallback.
The parts of one piece are all decided on in the same way, and the parts of two pieces in different
ways, even if the pieces go to the same target. -/

set_option autoImplicit false

namespace PartSorting

namespace Workflow

/-- The place of the first rule that admits a part; there is none if the fallback takes it. -/
def choiceBy (rules : List Rule) (part : Part) : Option Nat :=
  rules.findIdx? fun rule => rule.condition.admits part

def choice (workflow : Workflow) (part : Part) : Option Nat :=
  choiceBy workflow.rules part

theorem choiceBy_of_admits {rule : Rule} {part : Part}
    (admitted : rule.condition.admits part = true) (rules : List Rule) :
    choiceBy (rule :: rules) part = some 0 := by
  rw [choiceBy, List.findIdx?_cons, if_pos admitted]

theorem choiceBy_of_not_admits {rule : Rule} {part : Part}
    (refused : ¬rule.condition.admits part = true) (rules : List Rule) :
    choiceBy (rule :: rules) part = (choiceBy rules part).map (· + 1) := by
  rw [choiceBy, List.findIdx?_cons, if_neg refused, choiceBy]

/-- All parts of a named box have one choice, and no part of another one has this choice. -/
structure Separated (choice : Part → Option Nat) (pieces : List (String × Box)) : Prop where
  uniform : ∀ piece ∈ pieces, ∃ chosen, ∀ part ∈ piece.2, choice part = chosen
  apart : pieces.Pairwise fun left right =>
    ∀ part ∈ left.2, ∀ other ∈ right.2, choice part ≠ choice other

namespace Separated

variable {choice : Part → Option Nat} {pieces : List (String × Box)}

theorem nil (choice : Part → Option Nat) : Separated choice [] :=
  ⟨fun _ member => absurd member List.not_mem_nil, .nil⟩

theorem of_cons {piece : String × Box} (separated : Separated choice (piece :: pieces)) :
    Separated choice pieces :=
  ⟨fun other member => separated.uniform other (List.mem_cons_of_mem _ member),
    separated.apart.of_cons⟩

theorem reverse (separated : Separated choice pieces) : Separated choice pieces.reverse := by
  constructor
  · intro piece member
    exact separated.uniform piece (List.mem_reverse.mp member)
  · apply List.pairwise_reverse.mpr
    apply separated.apart.imp
    intro left right apart part inRight other inLeft same
    exact apart other inLeft part inRight same.symm

theorem append {others : List (String × Box)} (first : Separated choice pieces)
    (second : Separated choice others)
    (across : ∀ piece ∈ pieces, ∀ other ∈ others, ∀ part ∈ piece.2, ∀ later ∈ other.2,
      choice part ≠ choice later) : Separated choice (pieces ++ others) := by
  constructor
  · intro piece member
    rcases List.mem_append.mp member with early | late
    · exact first.uniform piece early
    · exact second.uniform piece late
  · exact List.pairwise_append.mpr ⟨first.apart, second.apart, across⟩

theorem of_injective {later : Part → Option Nat} (separated : Separated choice pieces)
    {renamed : Option Nat → Option Nat} (injective : Function.Injective renamed)
    (same : ∀ piece ∈ pieces, ∀ part ∈ piece.2, later part = renamed (choice part)) :
    Separated later pieces := by
  constructor
  · intro piece member
    obtain ⟨chosen, uniform⟩ := separated.uniform piece member
    refine ⟨renamed chosen, fun part inside => ?_⟩
    rw [same piece member part inside, uniform part inside]
  · apply separated.apart.imp_of_mem
    intro left right leftMember rightMember apart part inLeft other inRight
    rw [same left leftMember part inLeft, same right rightMember other inRight]
    exact injective.ne (apart part inLeft other inRight)

theorem passOn {box : Box} {chosen : Option Nat} (target : String)
    (uniform : ∀ part ∈ box, choice part = chosen) :
    Separated choice (Workflow.passOn target box) := by
  constructor
  · intro piece member
    obtain ⟨rfl, _⟩ := mem_passOn member
    exact ⟨chosen, uniform⟩
  · rw [Workflow.passOn]
    split
    · exact List.pairwise_singleton _ _
    · exact .nil

end Separated

/-- The pieces of a box are separated by the rules that decide on their parts. -/
theorem separated_divideBy {scale : Interval} (fallback : String) (rules : List Rule) (box : Box)
    (within : Box.Within scale box) :
    Separated (choiceBy rules) (divideBy scale fallback rules box).pieces := by
  induction rules generalizing box with
  | nil =>
      rw [pieces_divideBy_nil]
      exact .passOn fallback fun part _ => rfl
  | cons rule rules ih =>
      rw [pieces_divideBy_cons]
      have matched : ∀ part ∈ box.keep rule.condition.attr (rule.condition.window scale),
          choiceBy (rule :: rules) part = some 0 := by
        intro part inside
        obtain ⟨inWindow, inBox⟩ := Box.mem_keep_iff.mp inside
        exact choiceBy_of_admits ((Box.mem_window_iff_admits within inBox _).mp inWindow) rules
      have restWithin := Box.within_drop within rule.condition.attr (rule.condition.window scale)
      have left : ∀ part ∈ Box.drop scale box rule.condition.attr (rule.condition.window scale),
          choiceBy (rule :: rules) part = (choiceBy rules part).map (· + 1) := by
        intro part inside
        obtain ⟨⟨_, outside⟩, inBox⟩ := Box.mem_drop_iff.mp inside
        exact choiceBy_of_not_admits
          (mt (Box.mem_window_iff_admits within inBox _).mpr outside) rules
      apply Separated.append (.passOn rule.target matched)
      · dsimp only
        split
        · exact .nil _
        · apply (ih _ restWithin).of_injective (Option.map_injective (add_left_injective 1))
          intro piece member part inside
          exact left part (mem_box_of_mem_piece restWithin member inside)
      · intro piece member other later part inside laterPart laterInside
        obtain ⟨rfl, _⟩ := mem_passOn member
        dsimp only at later
        split at later
        · exact absurd later List.not_mem_nil
        · rw [matched part inside, left laterPart
            (mem_box_of_mem_piece restWithin later laterInside)]
          cases choiceBy rules laterPart <;> simp

end Workflow

end PartSorting
