import PartSorting.Proofs.Box.Volume
import PartSorting.Proofs.Workflow.Division

/-! # The rules that get nothing of a box

A rule is tried while there is something left of the box, and the first one in any case.  It is
pruned exactly if no part that is left satisfies its condition.  Pruned rules are reported with
their thresholds, so the split of a box fails exactly if one of these is too long to be written. -/

set_option autoImplicit false

namespace PartSorting

def Division.PrunesWritten (division : Division) : Prop :=
  ∀ rule ∈ division.pruned, Writable rule.condition.threshold

instance (division : Division) : Decidable division.PrunesWritten :=
  inferInstanceAs (Decidable (∀ rule ∈ division.pruned, Writable rule.condition.threshold))

/-- All that is reported of a division has few enough digits to be written: the thresholds of the
pruned rules and the volumes of the pieces. -/
structure Division.Written (division : Division) : Prop where
  prunes : division.PrunesWritten
  volumes : ∀ piece ∈ division.pieces, Writable (Box.volume piece.2)

instance (division : Division) : Decidable division.Written :=
  decidable_of_iff
    (division.PrunesWritten ∧ ∀ piece ∈ division.pieces, Writable (Box.volume piece.2))
    ⟨fun both => ⟨both.1, both.2⟩, fun written => ⟨written.prunes, written.volumes⟩⟩

namespace Box

variable {scale : Interval} {box : Box} {part : Part}

theorem volume_pos_iff_mem (within : Within scale box) :
    0 < volume box ↔ ∃ part, part ∈ box := by
  simp only [volume_pos_iff within, weight_pos_iff]

theorem volume_ne_zero_iff (within : Within scale box) :
    ¬volume box = 0 ↔ ∃ part, part ∈ box := by
  have nonneg := volume_nonneg within
  rw [← volume_pos_iff_mem within]
  omega

theorem mem_keep_window_iff (within : Within scale box) (condition : Condition) :
    part ∈ box.keep condition.attr (condition.window scale) ↔
      part ∈ box ∧ condition.admits part = true := by
  rw [mem_keep_iff, and_comm]
  exact and_congr_right fun inside => mem_window_iff_admits within inside condition

theorem mem_drop_window_iff (within : Within scale box) (condition : Condition) :
    part ∈ drop scale box condition.attr (condition.window scale) ↔
      part ∈ box ∧ condition.admits part = false := by
  rw [mem_drop_iff, and_comm]
  refine and_congr_right fun inside => ?_
  rw [mem_window_iff_admits within inside condition, Bool.not_eq_true]
  exact and_iff_right (onScale_of_mem within inside condition.attr)

end Box

namespace Workflow

variable {scale : Interval} {fallback : String} {rules : List Rule} {box : Box} {rule : Rule}

def Remains (box : Box) (tried : List Rule) (part : Part) : Prop :=
  part ∈ box ∧ ∀ rule ∈ tried, rule.condition.admits part = false

/-- The rule is tried on what the rules before it leave of the box, and none of that satisfies its
condition. -/
def Idle (rules : List Rule) (box : Box) (rule : Rule) : Prop :=
  ∃ before after, rules = before ++ rule :: after ∧
    (before = [] ∨ ∃ part, Remains box before part) ∧
    ∀ part, Remains box before part → rule.condition.admits part = false

theorem not_idle_nil (box : Box) (rule : Rule) : ¬Idle [] box rule := by
  intro idle
  obtain ⟨before, after, impossible, _⟩ := idle
  cases before <;> contradiction

theorem remains_cons_iff (within : Box.Within scale box) (first : Rule) (tried : List Rule)
    (part : Part) :
    Remains box (first :: tried) part ↔
      Remains (Box.drop scale box first.condition.attr (first.condition.window scale)) tried
        part := by
  simp only [Remains, Box.mem_drop_window_iff within, List.forall_mem_cons, and_assoc]

/-- The first rule gets nothing, or a later one gets nothing of what the first leaves. -/
theorem idle_cons_iff (within : Box.Within scale box) (first : Rule) :
    Idle (first :: rules) box rule ↔
      (rule = first ∧ ∀ part ∈ box, first.condition.admits part = false) ∨
        let rest := Box.drop scale box first.condition.attr (first.condition.window scale)
        (∃ part, part ∈ rest) ∧ Idle rules rest rule := by
  constructor
  · intro idle
    obtain ⟨before, after, split, tried, unsatisfied⟩ := idle
    cases before with
    | nil =>
        obtain ⟨rfl, _⟩ := List.cons.inj split
        refine .inl ⟨rfl, fun part inside => unsatisfied part ⟨inside, ?_⟩⟩
        exact fun _ impossible => absurd impossible List.not_mem_nil
    | cons other before =>
        obtain ⟨rfl, later⟩ := List.cons.inj split
        simp only [remains_cons_iff within] at tried unsatisfied
        obtain ⟨part, remains⟩ := tried.resolve_left (List.cons_ne_nil _ _)
        exact .inr ⟨⟨part, remains.1⟩, before, after, later, .inr ⟨part, remains⟩, unsatisfied⟩
  · intro cause
    rcases cause with ⟨rfl, unsatisfied⟩ | ⟨⟨part, left⟩, before, after, rfl, tried, unsatisfied⟩
    · exact ⟨[], rules, rfl, .inl rfl, fun part remains => unsatisfied part remains.1⟩
    · refine ⟨first :: before, after, rfl, .inr ?_, ?_⟩
      · rcases tried with rfl | ⟨other, remains⟩
        · refine ⟨part, (remains_cons_iff within first [] part).mpr ⟨left, ?_⟩⟩
          exact fun _ impossible => absurd impossible List.not_mem_nil
        · exact ⟨other, (remains_cons_iff within first before other).mpr remains⟩
      · intro other remains
        exact unsatisfied other ((remains_cons_iff within first before other).mp remains)

theorem mem_pruned_cons_iff (within : Box.Within scale box) (first : Rule) :
    rule ∈ (divideBy scale fallback (first :: rules) box).pruned ↔
      (rule = first ∧ ∀ part ∈ box, first.condition.admits part = false) ∨
        let rest := Box.drop scale box first.condition.attr (first.condition.window scale)
        (∃ part, part ∈ rest) ∧ rule ∈ (divideBy scale fallback rules rest).pruned := by
  have nothingKept :
      ¬0 < Box.volume (box.keep first.condition.attr (first.condition.window scale)) ↔
        ∀ part ∈ box, first.condition.admits part = false := by
    rw [Box.volume_pos_iff_mem (Box.within_keep within _ _)]
    simp only [Box.mem_keep_window_iff within, not_exists, not_and, Bool.not_eq_true]
  have somethingLeft := Box.volume_ne_zero_iff
    (Box.within_drop within first.condition.attr (first.condition.window scale))
  have divided : (divideBy scale fallback (first :: rules) box).pruned =
      (if 0 < Box.volume (box.keep first.condition.attr (first.condition.window scale)) then []
        else [first]) ++
        let rest := Box.drop scale box first.condition.attr (first.condition.window scale)
        if Box.volume rest = 0 then [] else (divideBy scale fallback rules rest).pruned := by
    simp only [divideBy]
    split <;> split <;> rfl
  rw [divided, List.mem_append, ← nothingKept]
  dsimp only
  rw [← somethingLeft]
  apply or_congr
  · split <;> simp [*]
  · split <;> simp [*]

/-- Pruned are the rules that get nothing of the box. -/
theorem mem_pruned_iff (within : Box.Within scale box) :
    rule ∈ (divideBy scale fallback rules box).pruned ↔ Idle rules box rule := by
  induction rules generalizing box with
  | nil =>
      have nothing : (divideBy scale fallback [] box).pruned = [] := by
        simp only [divideBy]
        split <;> rfl
      rw [nothing]
      exact iff_of_false List.not_mem_nil (not_idle_nil box rule)
  | cons first rules ih =>
      have restWithin := Box.within_drop within first.condition.attr (first.condition.window scale)
      rw [mem_pruned_cons_iff within, idle_cons_iff within]
      simp only [ih restWithin]

theorem prunesWritten_iff (within : Box.Within scale box) (workflow : Workflow) :
    (workflow.divide scale box).PrunesWritten ↔
      ∀ rule, Idle workflow.rules box rule → Writable rule.condition.threshold := by
  simp only [Division.PrunesWritten, divide, mem_pruned_iff within]

theorem mem_rules_of_mem_pruned
    (pruned : rule ∈ (divideBy scale fallback rules box).pruned) : rule ∈ rules := by
  induction rules generalizing box with
  | nil =>
      simp only [divideBy] at pruned
      split at pruned <;> contradiction
  | cons first rules ih =>
      simp only [divideBy] at pruned
      have later : ∀ {rest : Box},
          rule ∈ (if Box.volume rest = 0 then ⟨[], []⟩
            else divideBy scale fallback rules rest : Division).pruned →
          rule ∈ first :: rules := by
        intro rest member
        split at member
        · contradiction
        · exact List.mem_cons_of_mem first (ih member)
      split at pruned
      · exact later pruned
      · rcases List.mem_cons.mp pruned with rfl | isLater
        · exact List.mem_cons_self
        · exact later isLater

theorem split_of_written {workflow : Workflow}
    (written : (workflow.divide scale box).PrunesWritten) :
    workflow.split scale box =
      ⟨(workflow.divide scale box).prunes workflow.name,
        .ok (workflow.divide scale box).pieces⟩ := by
  have reported : ∀ event ∈ (workflow.divide scale box).prunes workflow.name, event.Writable :=
    List.forall_mem_map.mpr written
  simp only [split, Traced.reportAll_of_writable reported, Traced.bind_def, Traced.events_pure,
    Traced.outcome_pure, List.append_nil]

theorem split_of_not_written {workflow : Workflow}
    (tooLong : ¬(workflow.divide scale box).PrunesWritten) :
    (workflow.split scale box).outcome = .error .integerTooLong := by
  have unreported :
      ¬∀ event ∈ (workflow.divide scale box).prunes workflow.name, event.Writable :=
    mt List.forall_mem_map.mp tooLong
  simp only [split, Traced.outcome_bind, Traced.outcome_reportAll, if_neg unreported]
  rfl

/-- A split has the pieces of the division, unless a pruned rule cannot be reported. -/
theorem outcome_split (workflow : Workflow) (scale : Interval) (box : Box) :
    (workflow.split scale box).outcome =
      if (workflow.divide scale box).PrunesWritten then .ok (workflow.divide scale box).pieces
      else .error .integerTooLong := by
  by_cases written : (workflow.divide scale box).PrunesWritten
  · rw [if_pos written, split_of_written written]
  · rw [if_neg written, split_of_not_written written]

end Workflow

end PartSorting
