import PartSorting.Proofs.Condition.Opposite
import PartSorting.Proofs.Workflow.Partition

/-! # The conditions that decide which piece a part is in

On a part a workflow tries its rules up to the first that admits it.  The piece that holds the part
is the box kept to what each of these rules has decided, its condition or the opposite one.  Kept
to any number of conditions, a box shows each of its lists through a single window. -/

set_option autoImplicit false

namespace PartSorting

namespace Condition

def decided (condition : Condition) (part : Part) : Condition :=
  if condition.admits part then condition else condition.opposite

@[simp] theorem attr_decided (condition : Condition) (part : Part) :
    (condition.decided part).attr = condition.attr := by
  simp only [decided]
  split
  · rfl
  · exact attr_opposite condition

/-- The ratings of one attribute on the scale that are in the windows of all conditions on it. -/
def commonWindow (scale : Interval) (i : Attribute) : List Condition → Interval
  | [] => scale
  | condition :: conditions =>
    if condition.attr = i then (condition.window scale).meet (commonWindow scale i conditions)
    else commonWindow scale i conditions

theorem commonWindow_of_untested {scale : Interval} {i : Attribute} {conditions : List Condition}
    (untested : ∀ condition ∈ conditions, condition.attr ≠ i) :
    commonWindow scale i conditions = scale := by
  induction conditions with
  | nil => rfl
  | cons condition conditions ih =>
      obtain ⟨other, others⟩ := List.forall_mem_cons.mp untested
      rw [commonWindow, if_neg other, ih others]

end Condition

namespace Box

variable {scale : Interval}

def keepAll (scale : Interval) (box : Box) (conditions : List Condition) : Box :=
  conditions.foldl (fun box condition => box.keep condition.attr (condition.window scale)) box

theorem keepAll_cons (box : Box) (condition : Condition) (conditions : List Condition) :
    keepAll scale box (condition :: conditions) =
      keepAll scale (box.keep condition.attr (condition.window scale)) conditions :=
  rfl

theorem keepAll_append (box : Box) (first second : List Condition) :
    keepAll scale box (first ++ second) = keepAll scale (keepAll scale box first) second :=
  List.foldl_append

theorem mem_of_mem_keepAll {box : Box} {conditions : List Condition} {part : Part}
    (inside : part ∈ keepAll scale box conditions) : part ∈ box := by
  induction conditions generalizing box with
  | nil => exact inside
  | cons condition conditions ih => exact (mem_keep_iff.mp (ih inside)).2

theorem get_keepAll {box : Box} (within : Within scale box) (conditions : List Condition)
    (i : Attribute) :
    (keepAll scale box conditions).get i =
      Intervals.clip (box.get i) (Condition.commonWindow scale i conditions) := by
  induction conditions generalizing box with
  | nil => exact (Intervals.clip_of_within (within i) (Int.le_refl _) (Int.le_refl _)).symm
  | cons condition conditions ih =>
      have kept := within_keep within condition.attr (condition.window scale)
      rw [keepAll_cons, ih kept, keep, PerAttribute.get_set,
        Condition.commonWindow]
      by_cases same : i = condition.attr
      · subst same
        rw [if_pos rfl, if_pos rfl, Intervals.clip_clip]
      · rw [if_neg same, if_neg (Ne.symm same)]

end Box

namespace Workflow

variable {scale : Interval} {fallback : String}

def tried : List Rule → Part → List Rule
  | [], _ => []
  | rule :: rules, part =>
    if rule.condition.admits part then [rule] else rule :: tried rules part

def decisions (rules : List Rule) (part : Part) : List Condition :=
  (tried rules part).map fun rule => rule.condition.decided part

theorem decisions_of_admits {rule : Rule} {part : Part}
    (admitted : rule.condition.admits part = true) (rules : List Rule) :
    decisions (rule :: rules) part = [rule.condition] := by
  rw [decisions, tried, if_pos admitted, List.map_singleton, Condition.decided, if_pos admitted]

theorem decisions_of_not_admits {rule : Rule} {part : Part}
    (refused : ¬rule.condition.admits part = true) (rules : List Rule) :
    decisions (rule :: rules) part = rule.condition.opposite :: decisions rules part := by
  rw [decisions, tried, if_neg refused, List.map_cons, Condition.decided, if_neg refused,
    decisions]

/-- The piece that holds a part is the box kept to what was decided on the part. -/
theorem piece_eq_keepAll {rules : List Rule} {box : Box} (within : Box.Within scale box)
    {piece : String × Box} (member : piece ∈ (divideBy scale fallback rules box).pieces)
    {part : Part} (inside : part ∈ piece.2) :
    piece.2 = box.keepAll scale (decisions rules part) := by
  induction rules generalizing box with
  | nil =>
      rw [pieces_divideBy_nil] at member
      obtain ⟨rfl, _⟩ := mem_passOn member
      rfl
  | cons rule rules ih =>
      have readings := Box.mem_window_iff_admits within (mem_box_of_mem_piece within member inside)
        rule.condition
      rw [pieces_divideBy_cons] at member
      rcases List.mem_append.mp member with matched | later
      · obtain ⟨rfl, _⟩ := mem_passOn matched
        have inWindow := (Box.mem_keep_iff.mp inside).1
        rw [decisions_of_admits (readings.mp inWindow)]
        rfl
      · dsimp only at later
        split at later
        · exact absurd later List.not_mem_nil
        · have restWithin := Box.within_drop within rule.condition.attr
            (rule.condition.window scale)
          have inRest := mem_box_of_mem_piece restWithin later inside
          have refused := mt readings.mpr (Box.mem_drop_iff.mp inRest).1.2
          rw [decisions_of_not_admits refused, ih restWithin later, Box.drop_window,
            Box.keepAll_cons, Condition.attr_opposite]

end Workflow

end PartSorting
