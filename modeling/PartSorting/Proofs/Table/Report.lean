import PartSorting.Proofs.Table.Ranges

/-! # The boxes of a report

The report of an evaluation sorts the delivered boxes by their sinks.  When the two sinks have
different names, a part of the start box is in exactly one accepted box if it is accepted and in
none otherwise, and the same holds of the rejected boxes the other way round. -/

set_option autoImplicit false

namespace PartSorting

def Arrivals.boxesAt (arrivals : Arrivals Box) (kind : String → Bool) : List Box :=
  (arrivals.deliveries.filter fun delivery => kind delivery.1).map Prod.snd

namespace Table

variable {table : Table} {config : Config}

theorem reportOf_eq (table : Table) (start : Int) (arrivals : Arrivals Box) :
    table.reportOf start arrivals =
      { start
        accepted := Box.totalVolume (arrivals.boxesAt fun sink => !(sink == table.reject))
        rejected := Box.totalVolume (arrivals.boxesAt fun sink => sink == table.reject)
        boxes := arrivals.boxesAt fun sink => !(sink == table.reject)
        visits := arrivals.visits } := by
  simp only [reportOf, List.partition_eq_filter_filter]
  rfl

theorem accepting_iff_terminal (distinct : table.accept ≠ table.reject) {part : Part}
    {verdict : Verdict} (walked : table.walk config part = .ok verdict) :
    (!(verdict.terminal == table.reject)) = true ↔
      Accepting (table.walk config part) := by
  obtain ⟨atSink, accepted⟩ := walkFrom_ok walked
  rw [accepting_iff walked, accepted]
  simp only [isSink, Bool.or_eq_true, beq_iff_eq, Bool.not_eq_true', beq_eq_false_iff_ne] at *
  constructor
  · intro notRejected
    exact atSink.resolve_right notRejected
  · intro isAccept isReject
    exact distinct (isAccept.symm.trans isReject)

theorem not_accepting_iff_terminal (distinct : table.accept ≠ table.reject) {part : Part}
    {verdict : Verdict} (walked : table.walk config part = .ok verdict) :
    (verdict.terminal == table.reject) = true ↔
      ¬Accepting (table.walk config part) := by
  rw [← accepting_iff_terminal distinct walked]
  simp only [Bool.not_eq_true', Bool.not_eq_false]

theorem within_boxesAt {arrivals : Arrivals Box} {kind : String → Bool} {scale : Interval}
    (occupied : ∀ delivery ∈ arrivals.deliveries, Box.Occupied scale delivery.2) :
    ∀ box ∈ arrivals.boxesAt kind, Box.Within scale box := by
  intro box member
  obtain ⟨delivery, chosen, rfl⟩ := List.mem_map.mp member
  have delivered := List.mem_of_mem_filter chosen
  exact (occupied delivery delivered).within

section Kinds

variable {arrivals : Arrivals Box} {part : Part} {walk : Except Fault Verdict} {occurs : Nat}
  {kind : String → Bool} {ends : Prop}

theorem weights_boxesAt [Decidable ends]
    (sighted : SightedAtEnd walk occurs
      (sightings (fun box => Box.weight box part) arrivals.deliveries))
    (endsThere : ∀ verdict, walk = .ok verdict → (kind verdict.terminal = true ↔ ends)) :
    (sightings (fun box => Box.weight box part)
        (arrivals.deliveries.filter fun delivery => kind delivery.1)).map Prod.snd =
      if 0 < occurs ∧ ends then [occurs] else [] := by
  rw [sightings_filter]
  exact sighted.chosen endsThere

theorem sum_weights_boxesAt [Decidable ends]
    (sighted : SightedAtEnd walk occurs
      (sightings (fun box => Box.weight box part) arrivals.deliveries))
    (endsThere : ∀ verdict, walk = .ok verdict → (kind verdict.terminal = true ↔ ends)) :
    ((arrivals.boxesAt kind).map fun box => Box.weight box part).sum =
      if ends then occurs else 0 := by
  have summed := sum_sightings (fun box => Box.weight box part)
    (arrivals.deliveries.filter fun delivery => kind delivery.1)
  rw [weights_boxesAt sighted endsThere] at summed
  rw [Arrivals.boxesAt, List.map_map]
  refine summed.symm.trans ?_
  by_cases isEnd : ends
  · rcases Nat.eq_zero_or_pos occurs with absent | present
    · simp [absent]
    · simp [isEnd, present]
  · simp [isEnd]

theorem countP_boxesAt [Decidable ends]
    (sighted : SightedAtEnd walk occurs
      (sightings (fun box => Box.weight box part) arrivals.deliveries))
    (endsThere : ∀ verdict, walk = .ok verdict → (kind verdict.terminal = true ↔ ends)) :
    (arrivals.boxesAt kind).countP (fun box => decide (0 < Box.weight box part)) =
      if 0 < occurs ∧ ends then 1 else 0 := by
  have counted := length_sightings (fun box => Box.weight box part)
    (arrivals.deliveries.filter fun delivery => kind delivery.1)
  rw [← List.length_map Prod.snd, weights_boxesAt sighted endsThere] at counted
  rw [Arrivals.boxesAt, List.countP_map]
  refine counted.symm.trans ?_
  split <;> rfl

theorem weight_of_mem_boxesAt
    (sighted : SightedAtEnd walk occurs
      (sightings (fun box => Box.weight box part) arrivals.deliveries))
    (endsThere : ∀ verdict, walk = .ok verdict → (kind verdict.terminal = true ↔ ends))
    {box : Box} (member : box ∈ arrivals.boxesAt kind) (present : 0 < Box.weight box part) :
    Box.weight box part = occurs ∧ ends := by
  obtain ⟨⟨sink, other⟩, delivered, rfl⟩ := List.mem_map.mp member
  obtain ⟨arrived, ofKind⟩ := List.mem_filter.mp delivered
  obtain ⟨same, verdict, walked, rfl⟩ := sighted.of_mem arrived present
  exact ⟨same, (endsThere verdict walked).mp ofKind⟩

end Kinds

/-- A scale with ratings that are too long to be written. -/
def vast : Config :=
  { Config.usual with scale := ⟨-outsize, outsize⟩ }

/-- The box that holds a single part, whose ratings are too long to be written. -/
def pinned : Box :=
  ⟨[⟨outsize, outsize⟩], [⟨-outsize, -outsize⟩], [⟨outsize, outsize⟩], [⟨-outsize, -outsize⟩]⟩

theorem outsized_mem_pinned : Part.outsized ∈ pinned := by
  intro i
  cases i <;> exact ⟨_, List.mem_singleton_self _, Int.le_refl _, Int.le_refl _⟩

theorem eq_outsized_of_inScope {part : Part} (inScope : InScope vast (some pinned) part) :
    part = .outsized := by
  have inside := inScope.2 pinned rfl
  apply PerAttribute.ext_get
  intro i
  obtain ⟨interval, member, above, below⟩ := inside i
  cases i <;>
    · obtain rfl := List.mem_singleton.mp member
      exact Int.le_antisymm below above

/-- Volumes are small where ratings are large, so the evaluation succeeds. -/
theorem evaluate_pinned :
    (accepting.evaluate vast (some pinned)).outcome = .ok ⟨1, 1, 0, [pinned], 1⟩ := by
  decide +kernel

theorem walk_outsized :
    accepting.walk vast .outsized = .ok ⟨.outsized, true, ["in"], "A"⟩ :=
  rfl

theorem not_accepting_outsized : ¬Accepting (accepting.classify vast .outsized) := by
  rw [accepting_classify_iff]
  exact fun accepted => Part.not_spellable_outsized accepted.2

end Table

end PartSorting
