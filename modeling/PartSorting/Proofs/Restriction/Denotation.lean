import PartSorting.Proofs.Box.Disjoint
import PartSorting.Proofs.Box.Volume
import PartSorting.Restriction

/-! # A restricted box denotes a conjunction

Each restriction admits some parts.  Whatever restrictions are applied to the whole scale, in
whatever order, the box holds the parts on the scale that all of them admit, each part once, so its
volume is the number of these parts. -/

set_option autoImplicit false

namespace PartSorting

open Finset

namespace Restriction

def Admits (part : Part) : Restriction → Prop
  | .keep attr interval => part.get attr ∈ interval
  | .drop attr interval => part.get attr ∉ interval
  | .matching condition => condition.admits part = true
  | .clip other => part ∈ other

instance (part : Part) (step : Restriction) : Decidable (step.Admits part) :=
  match step with
  | .keep attr interval => inferInstanceAs (Decidable (part.get attr ∈ interval))
  | .drop attr interval => inferInstanceAs (Decidable (part.get attr ∉ interval))
  | .matching condition => inferInstanceAs (Decidable (condition.admits part = true))
  | .clip other => inferInstanceAs (Decidable (part ∈ other))

/-- A box to which another one is clipped has to have disjoint lists. -/
def Fair : Restriction → Prop
  | .clip other => Box.Disjoint other
  | _ => True

instance (step : Restriction) : Decidable step.Fair :=
  match step with
  | .keep .. => isTrue trivial
  | .drop .. => isTrue trivial
  | .matching _ => isTrue trivial
  | .clip other => inferInstanceAs (Decidable (Box.Disjoint other))

def restrict (scale : Interval) (steps : List Restriction) : Box :=
  steps.foldl (apply scale) (.full scale)

theorem restrict_concat (scale : Interval) (steps : List Restriction) (step : Restriction) :
    restrict scale (steps ++ [step]) = step.apply scale (restrict scale steps) := by
  rw [restrict, List.foldl_concat]
  rfl

section Step
variable {scale : Interval} {box : Box}

theorem within_apply (within : Box.Within scale box) (step : Restriction) :
    Box.Within scale (step.apply scale box) := by
  cases step with
  | keep attr interval => exact Box.within_keep within attr interval
  | drop attr interval => exact Box.within_drop within attr interval
  | matching condition => exact Box.within_keep within _ _
  | clip other => exact Box.within_inter_left within other

theorem disjoint_apply (disjoint : Box.Disjoint box) {step : Restriction} (fair : step.Fair) :
    Box.Disjoint (step.apply scale box) := by
  cases step with
  | keep attr interval => exact Box.disjoint_keep disjoint attr interval
  | drop attr interval => exact Box.disjoint_drop disjoint scale attr interval
  | matching condition => exact Box.disjoint_keep disjoint _ _
  | clip other => exact Box.disjoint_inter disjoint fair

theorem mem_apply_iff (within : Box.Within scale box) (step : Restriction) {part : Part} :
    part ∈ step.apply scale box ↔ part ∈ box ∧ step.Admits part := by
  cases step with
  | keep attr interval => exact Box.mem_keep_iff.trans And.comm
  | drop attr interval =>
      rw [apply, Box.mem_drop_iff, and_comm]
      apply and_congr_right
      intro inside
      have onScale := Box.onScale_of_mem within inside
      exact and_iff_right (onScale attr)
  | matching condition =>
      rw [apply, Box.mem_keep_iff, and_comm]
      apply and_congr_right
      intro inside
      exact Box.mem_window_iff_admits within inside condition
  | clip other => exact Box.mem_inter_iff

end Step

structure Denoted (scale : Interval) (steps : List Restriction) (box : Box) : Prop where
  within : Box.Within scale box
  disjoint : Box.Disjoint box
  mem_iff : ∀ part, part ∈ box ↔ part.OnScale scale ∧ ∀ step ∈ steps, step.Admits part

namespace Denoted

variable {scale : Interval} {steps : List Restriction} {box : Box}

theorem full (proper : scale.Proper) : Denoted scale [] (.full scale) where
  within := Box.within_full proper
  disjoint := Box.disjoint_full scale
  mem_iff := by
    intro part
    have once := Box.weight_full scale part
    rw [← Box.weight_pos_iff, once]
    by_cases onScale : part.OnScale scale
    · simp [onScale]
    · simp [onScale]

/-- One restriction more is one conjunct more. -/
theorem apply (denoted : Denoted scale steps box) {step : Restriction} (fair : step.Fair) :
    Denoted scale (steps ++ [step]) (step.apply scale box) where
  within := within_apply denoted.within step
  disjoint := disjoint_apply denoted.disjoint fair
  mem_iff := by
    intro part
    rw [mem_apply_iff denoted.within, denoted.mem_iff, and_assoc, List.forall_mem_append,
      List.forall_mem_singleton]

theorem volume_eq (denoted : Denoted scale steps box) :
    Box.volume box = #{part ∈ Part.allOn scale | ∀ step ∈ steps, step.Admits part} := by
  rw [Box.volume_eq_sum denoted.within, ← sum_boole]
  apply sum_congr rfl
  intro part listed
  have onScale := Part.mem_allOn.mp listed
  have same : part ∈ box ↔ ∀ step ∈ steps, step.Admits part := by
    rw [denoted.mem_iff, and_iff_right onScale]
  rw [Box.weight_of_disjoint denoted.disjoint]
  simp only [same, Nat.cast_ite, Nat.cast_one, Nat.cast_zero]

theorem volume_apply_le (denoted : Denoted scale steps box) {step : Restriction}
    (fair : step.Fair) : Box.volume (step.apply scale box) ≤ Box.volume box := by
  rw [(denoted.apply fair).volume_eq, denoted.volume_eq]
  apply Int.ofNat_le.mpr
  apply card_le_card
  apply monotone_filter_right
  intro part _ admitted other member
  exact admitted other (List.mem_append_left _ member)

end Denoted

theorem denoted_of_fair {scale : Interval} (proper : scale.Proper) (steps : List Restriction)
    (fair : ∀ step ∈ steps, step.Fair) : Denoted scale steps (restrict scale steps) := by
  induction steps using List.reverseRecOn with
  | nil => exact .full proper
  | append_singleton steps step ih =>
      rw [restrict_concat]
      obtain ⟨earlier, last⟩ := List.forall_mem_append.mp fair
      exact (ih earlier).apply (last step (List.mem_singleton_self step))

/-- After each of any restrictions of the whole scale, the box denotes the conjunction of those so
far: it holds the parts on the scale that they all admit, its volume is the number of these parts,
and a further restriction does not make it larger. -/
theorem denoted_restrict {scale : Interval} (proper : scale.Proper) (steps : List Restriction)
    (fair : ∀ step ∈ steps, step.Fair) :
    (∀ before, before <+: steps →
      Denoted scale before (restrict scale before) ∧
      Box.volume (restrict scale before) =
        #{part ∈ Part.allOn scale | ∀ step ∈ before, step.Admits part} ∧
      0 ≤ Box.volume (restrict scale before)) ∧
    ∀ before step, before ++ [step] <+: steps →
      Box.volume (restrict scale (before ++ [step])) ≤ Box.volume (restrict scale before) := by
  have denoted : ∀ before, before <+: steps → Denoted scale before (restrict scale before) :=
    fun before isPrefix =>
      denoted_of_fair proper before fun step member => fair step (isPrefix.subset member)
  constructor
  · intro before isPrefix
    have soFar := denoted before isPrefix
    exact ⟨soFar, soFar.volume_eq, Box.volume_nonneg soFar.within⟩
  · intro before step isPrefix
    rw [restrict_concat]
    have isPrefixToo := (List.prefix_append before [step]).trans isPrefix
    apply (denoted before isPrefixToo).volume_apply_le
    exact fair step (isPrefix.subset (List.mem_append_right _ (List.mem_singleton_self step)))

/-- The clip box has an interval that leaves the scale, one that is off it, and an improper one. -/
theorem denoted_restrict_allForms :
    let scale : Interval := ⟨1, 4⟩
    let steps : List Restriction :=
      [.keep .x ⟨0, 3⟩, .drop .x ⟨2, 2⟩, .matching ⟨.m, .greaterThan, 2⟩,
        .clip ⟨[⟨3, 9⟩, ⟨1, 2⟩], [⟨1, 4⟩], [⟨6, 8⟩, ⟨2, 2⟩, ⟨5, 3⟩], [⟨1, 4⟩]⟩]
    let box : Box := ⟨[⟨1, 1⟩, ⟨3, 3⟩], [⟨3, 4⟩], [⟨2, 2⟩], [⟨1, 4⟩]⟩
    scale.Proper ∧ (∀ step ∈ steps, step.Fair) ∧ restrict scale steps = box ∧
      Denoted scale steps box ∧
      #{part ∈ Part.allOn scale | ∀ step ∈ steps, step.Admits part} = 16 := by
  intro scale steps box
  have proper : scale.Proper := by decide
  have fair : ∀ step ∈ steps, step.Fair := by decide
  have same : restrict scale steps = box := by decide
  have volume : Box.volume box = 16 := by decide
  obtain ⟨denoted, counted, _⟩ := (denoted_restrict proper steps fair).1 steps List.prefix_rfl
  rw [same] at denoted counted
  rw [volume] at counted
  exact ⟨proper, fair, same, denoted, Int.ofNat_inj.mp counted.symm⟩

end Restriction

end PartSorting
