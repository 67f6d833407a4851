import PartSorting.Proofs.Condition.Opposite
import PartSorting.Proofs.Table.Shrinking

/-! # The scale only clips the start box

On a box that lies within a scale, a window cuts as it would on any larger scale, wherever the
threshold lies.  So the box is divided and swept alike on both scales, and an evaluation on the
smaller scale is one on the larger scale that starts with the clipped box. -/

set_option autoImplicit false

namespace PartSorting

section Scales

variable {inner outer : Interval} (low : outer.low ≤ inner.low) (high : inner.high ≤ outer.high)

include low high

theorem Condition.meet_window_congr (condition : Condition) {interval : Interval}
    (above : inner.low ≤ interval.low) (below : interval.high ≤ inner.high) :
    interval.meet (condition.window inner) = interval.meet (condition.window outer) := by
  simp only [Interval.meet, window]
  cases condition.comparator with
  | lessThan =>
      simp only [Interval.mk.injEq]
      omega
  | greaterThan =>
      simp only [Interval.mk.injEq]
      omega

theorem Intervals.clip_window_congr (condition : Condition) {intervals : List Interval}
    (within : Within inner intervals) :
    clip intervals (condition.window inner) = clip intervals (condition.window outer) := by
  apply List.filterMap_congr
  intro interval member
  obtain ⟨_, above, below⟩ := within interval member
  rw [Interval.inter?_eq, Interval.inter?_eq,
    condition.meet_window_congr low high above below]

theorem Box.keep_window_congr (condition : Condition) {box : Box} (within : Within inner box)
    (i : Attribute) :
    box.keep i (condition.window inner) = box.keep i (condition.window outer) := by
  rw [keep, keep, Intervals.clip_window_congr low high condition (within i)]

/-- What a rule leaves of a box is cut by a window too, that of the opposite condition. -/
theorem Box.drop_window_congr (condition : Condition) {box : Box} (within : Within inner box) :
    drop inner box condition.attr (condition.window inner) =
      drop outer box condition.attr (condition.window outer) := by
  rw [drop_window, drop_window, keep_window_congr low high condition.opposite within]

theorem Workflow.divideBy_congr (fallback : String) (rules : List Rule) (box : Box)
    (within : Box.Within inner box) :
    divideBy inner fallback rules box = divideBy outer fallback rules box := by
  induction rules generalizing box with
  | nil => rfl
  | cons rule rules ih =>
      have later := ih _ (Box.within_drop within rule.condition.attr
        (rule.condition.window inner))
      simp only [divideBy]
      rw [later, Box.keep_window_congr low high rule.condition within,
        Box.drop_window_congr low high rule.condition within]

theorem Table.pushPieces_congr (name : String) (workflow : Workflow) (box : Box)
    (within : Box.Within inner box) :
    pushPieces inner name workflow box = pushPieces outer name workflow box := by
  simp only [pushPieces, Workflow.split, Workflow.divide,
    Workflow.divideBy_congr low high _ _ box within]

theorem Table.sweep_congr (table : Table) (config : Config) {box : Box}
    (within : Box.Within inner box) :
    table.sweep { config with scale := inner } (pushPieces inner) box =
      table.sweep { config with scale := outer } (pushPieces outer) box := by
  apply sweepFrom_congr (pushPieces_congr low high) _ _ _ _ _ within
  intro name workflow box pieces within divided
  exact within_of_pushPieces within divided

end Scales

namespace Table

variable {inner outer : Interval}

theorem evaluate_startBox (table : Table) (config : Config) (proper : inner.Proper)
    (low : outer.low ≤ inner.low) (high : inner.high ≤ outer.high) (box : Option Box) :
    table.evaluate { config with scale := inner } box =
      table.evaluate { config with scale := outer }
        (some (startBox { config with scale := inner } box)) := by
  have within : Box.Within inner (startBox { config with scale := inner } box) :=
    within_startBox proper box
  have same : startBox { config with scale := outer }
        (some (startBox { config with scale := inner } box)) =
      startBox { config with scale := inner } box :=
    Box.inter_full_of_within low high within
  simp only [evaluate, same, sweep_congr low high table config within]

/-- An evaluation on a scale is the evaluation on any scale around it, with the same report and the
same events, of what the box has of the smaller scale. -/
theorem evaluate_clipped (table : Table) (config : Config) (proper : inner.Proper)
    (inside : ∀ value ∈ inner, value ∈ outer) :
    table.evaluate { config with scale := inner } none =
      table.evaluate { config with scale := outer } (some (.full inner)) ∧
    ∀ box,
      table.evaluate { config with scale := inner } (some box) =
        table.evaluate { config with scale := outer } (some (.inter box (.full inner))) := by
  have low : outer.low ≤ inner.low := (inside inner.low ⟨Int.le_refl _, proper⟩).1
  have high : inner.high ≤ outer.high := (inside inner.high ⟨proper, Int.le_refl _⟩).2
  exact ⟨evaluate_startBox table config proper low high none,
    fun box => evaluate_startBox table config proper low high (some box)⟩

theorem evaluate_clipped_twoStage :
    let box : Box := ⟨[⟨0, 4⟩, ⟨2, 9⟩], [⟨1, 5⟩], [⟨2, 3⟩], [⟨-7, 2⟩, ⟨6, 5⟩]⟩
    let report : RangeReport := ⟨64, 12, 52, [⟨[⟨2, 2⟩, ⟨2, 2⟩], [⟨3, 5⟩], [⟨2, 3⟩], [⟨2, 2⟩]⟩], 2⟩
    (⟨2, 6⟩ : Interval).Proper ∧
    (∀ value ∈ (⟨2, 6⟩ : Interval), value ∈ (⟨-5, 30⟩ : Interval)) ∧
    (twoStage.evaluate { Config.usual with scale := ⟨2, 6⟩ } (some box)).outcome = .ok report ∧
    (twoStage.evaluate { Config.usual with scale := ⟨-5, 30⟩ }
      (some (.inter box (.full ⟨2, 6⟩)))).outcome = .ok report := by
  intro box report
  have proper : (⟨2, 6⟩ : Interval).Proper := by decide
  have inside : ∀ value ∈ (⟨2, 6⟩ : Interval), value ∈ (⟨-5, 30⟩ : Interval) := by
    intro value member
    simp only [Interval.mem_def] at member ⊢
    omega
  have evaluated : (twoStage.evaluate { Config.usual with scale := ⟨2, 6⟩ } (some box)).outcome =
      .ok report := by
    decide +kernel
  refine ⟨proper, inside, evaluated, ?_⟩
  rw [← (evaluate_clipped twoStage Config.usual proper inside).2 box]
  exact evaluated

end Table

end PartSorting
