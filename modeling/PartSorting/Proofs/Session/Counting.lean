import PartSorting.Proofs.Box.Disjoint
import PartSorting.Proofs.Box.Volume
import PartSorting.Proofs.Config.Validity
import PartSorting.Proofs.Table.Report
import PartSorting.Session

/-! # An evaluation counts the parts that are judged one by one

The volumes that an evaluation reports are sums over all parts on the scale, each part weighted
by its occurrences in the given box: over all of them, over those whose walks accept them, and over
the others.  The session accepts the same parts when their ratings can be written. -/

set_option autoImplicit false

namespace PartSorting

open Finset

namespace Table

variable {table : Table} {config : Config}

theorem volume_of_within_startBox {box : Option Box}
    (within : Box.Within config.scale (startBox config box)) :
    Box.volume (startBox config box) =
      ∑ part ∈ Part.allOn config.scale, (occurrences box part : Int) := by
  rw [Box.volume_eq_sum within]
  apply sum_congr rfl
  intro part onScale
  rw [weight_startBox, if_pos (Part.mem_allOn.mp onScale)]

theorem volume_startBox (proper : config.scale.Proper) (box : Option Box) :
    Box.volume (startBox config box) =
      ∑ part ∈ Part.allOn config.scale, (occurrences box part : Int) :=
  volume_of_within_startBox (within_startBox proper box)

theorem totalVolume_boxesAt {box : Option Box} {arrivals : Arrivals Box}
    {kind : String → Bool} {ends : Part → Prop} [DecidablePred ends]
    (occupied : ∀ delivery ∈ arrivals.deliveries, Box.Occupied config.scale delivery.2)
    (sighted : ∀ part, SightedAtEnd (table.walk config part)
      (Box.weight (startBox config box) part)
      (sightings (fun box => Box.weight box part) arrivals.deliveries))
    (endsThere : ∀ part verdict, table.walk config part = .ok verdict →
      (kind verdict.terminal = true ↔ ends part)) :
    Box.totalVolume (arrivals.boxesAt kind) =
      ∑ part ∈ Part.allOn config.scale with ends part, (occurrences box part : Int) := by
  rw [Box.totalVolume_eq_sum (within_boxesAt occupied), sum_filter]
  apply sum_congr rfl
  intro part onScale
  rw [sum_weights_boxesAt (sighted part) (endsThere part), weight_startBox,
    if_pos (Part.mem_allOn.mp onScale)]
  split <;> rfl

theorem inScope_iff_occurrences_pos {box : Option Box} {part : Part}
    (onScale : part.OnScale config.scale) :
    InScope config box part ↔ 0 < occurrences box part := by
  rw [← weight_startBox_pos_iff, weight_startBox, if_pos onScale]

end Table

namespace Session

theorem outcome_judge (session : Session) (part : Part) :
    (session.judge part).outcome = session.table.classify session.config part :=
  Table.outcome_judge session.table session.config part

theorem config_valid (session : Session) : session.config.Valid :=
  Config.defect?_eq_none_iff.mp session.valid

theorem scale_proper (session : Session) : session.config.scale.Proper :=
  session.config_valid.scale_proper

theorem sinks_distinct (session : Session) : session.table.accept ≠ session.table.reject := by
  rw [session.accept_eq, session.reject_eq]
  exact session.config_valid.sinks_distinct

theorem outcome_count {session : Session} {box : Option Box} {report : RangeReport}
    (evaluated : (session.evaluate box).outcome = .ok report) :
    (session.count box).outcome = .ok report.accepted := by
  simp only [evaluate] at evaluated
  simp only [count, Table.count, Traced.outcome_bind, evaluated]
  rfl

section Counts

variable {session : Session} {box : Option Box} {accepts acceptsToo : Part → Prop}
  [DecidablePred accepts] [DecidablePred acceptsToo] {report : RangeReport}

/-- The volumes of a report are the numbers of parts on the scale, of those that are accepted, and
of the others, each part counted as often as the given box has it. -/
structure Counts (session : Session) (box : Option Box) (accepts : Part → Prop)
    [DecidablePred accepts] (report : RangeReport) : Prop where
  start : report.start =
    ∑ part ∈ Part.allOn session.config.scale, (Table.occurrences box part : Int)
  accepted : report.accepted =
    ∑ part ∈ Part.allOn session.config.scale with accepts part,
      (Table.occurrences box part : Int)
  counted : (session.count box).outcome = .ok report.accepted
  rejected : report.rejected =
    ∑ part ∈ Part.allOn session.config.scale with ¬accepts part,
      (Table.occurrences box part : Int)
  whole : box = none → report.accepted = #{part ∈ Part.allOn session.config.scale | accepts part}
  disjoint : ∀ given, box = some given → Box.Disjoint given →
    report.accepted = #{part ∈ Part.allOn session.config.scale | part ∈ given ∧ accepts part}

/-- Parts out of scope do not occur, so it does not matter whether they are accepted. -/
theorem sum_occurrences_congr
    (same : ∀ part, Table.InScope session.config box part → (accepts part ↔ acceptsToo part)) :
    ∑ part ∈ Part.allOn session.config.scale with accepts part,
        (Table.occurrences box part : Int) =
      ∑ part ∈ Part.allOn session.config.scale with acceptsToo part,
        (Table.occurrences box part : Int) := by
  rw [sum_filter, sum_filter]
  apply sum_congr rfl
  intro part member
  have onScale := Part.mem_allOn.mp member
  rcases Nat.eq_zero_or_pos (Table.occurrences box part) with absent | occurs
  · simp only [absent, Nat.cast_zero, ite_self]
  · simp only [same part ((Table.inScope_iff_occurrences_pos onScale).mpr occurs)]

theorem Counts.congr (counts : session.Counts box accepts report)
    (same : ∀ part, Table.InScope session.config box part → (accepts part ↔ acceptsToo part)) :
    session.Counts box acceptsToo report where
  start := counts.start
  accepted := counts.accepted.trans (sum_occurrences_congr same)
  counted := counts.counted
  rejected := counts.rejected.trans
    (sum_occurrences_congr fun part inScope => not_congr (same part inScope))
  whole := by
    rintro rfl
    rw [counts.whole rfl]
    congr 2
    apply filter_congr
    intro part member
    exact same part ⟨Part.mem_allOn.mp member, fun _ impossible => absurd impossible (by simp)⟩
  disjoint := by
    rintro given rfl disjoint
    rw [counts.disjoint given rfl disjoint]
    congr 2
    apply filter_congr
    intro part member
    refine and_congr_right fun inside => same part ⟨Part.mem_allOn.mp member, ?_⟩
    intro other isOther
    obtain rfl := Option.some.inj isOther
    exact inside

/-- Two counts of one report leave no part in scope that only the first accepts. -/
theorem Counts.accepts_of_accepts (counts : session.Counts box accepts report)
    (countsToo : session.Counts box acceptsToo report)
    (fewer : ∀ part, acceptsToo part → accepts part) {part : Part}
    (inScope : Table.InScope session.config box part) (accepted : accepts part) :
    acceptsToo part := by
  by_contra notAccepted
  have occurs := (Table.inScope_iff_occurrences_pos inScope.1).mp inScope
  have member := Part.mem_allOn.mpr inScope.1
  have less : ∑ part ∈ Part.allOn session.config.scale with acceptsToo part,
        (Table.occurrences box part : Int) <
      ∑ part ∈ Part.allOn session.config.scale with accepts part,
        (Table.occurrences box part : Int) := by
    apply sum_lt_sum_of_subset (monotone_filter_right _ fun part _ => fewer part)
      (mem_filter.mpr ⟨member, accepted⟩) fun isAccepted => notAccepted (mem_filter.mp isAccepted).2
    · exact Int.natCast_pos.mpr occurs
    · exact fun _ _ _ => Int.natCast_nonneg _
  rw [← counts.accepted, ← countsToo.accepted] at less
  exact Int.lt_irrefl _ less

theorem Counts.exists_accepts (counts : session.Counts box accepts report)
    (counted : report.accepted ≠ 0) :
    ∃ part, Table.InScope session.config box part ∧ accepts part := by
  obtain ⟨part, member, occurs⟩ := exists_ne_zero_of_sum_ne_zero (counts.accepted ▸ counted)
  obtain ⟨listed, accepted⟩ := mem_filter.mp member
  have onScale := Part.mem_allOn.mp listed
  exact ⟨part, (Table.inScope_iff_occurrences_pos onScale).mpr (by omega), accepted⟩

end Counts

theorem counts_walk {session : Session} {box : Option Box} {report : RangeReport}
    (evaluated : (session.evaluate box).outcome = .ok report) :
    session.Counts box (fun part => Accepting (session.table.walk session.config part))
      report := by
  obtain ⟨arrivals, reported, occupied, sighted⟩ :=
    Table.arrivals_of_evaluate session.scale_proper evaluated
  have distinct := session.sinks_distinct
  have start := Table.volume_startBox session.scale_proper box
  have accepted : Box.totalVolume
        (arrivals.boxesAt fun sink => !(sink == session.table.reject)) =
      ∑ part ∈ Part.allOn session.config.scale with
        Accepting (session.table.walk session.config part),
        (Table.occurrences box part : Int) :=
    Table.totalVolume_boxesAt occupied sighted fun _ _ walked =>
      Table.accepting_iff_terminal distinct walked
  have rejected : Box.totalVolume
        (arrivals.boxesAt fun sink => sink == session.table.reject) =
      ∑ part ∈ Part.allOn session.config.scale with
        ¬Accepting (session.table.walk session.config part),
        (Table.occurrences box part : Int) :=
    Table.totalVolume_boxesAt occupied sighted fun _ _ walked =>
      Table.not_accepting_iff_terminal distinct walked
  have counted := outcome_count evaluated
  rw [Table.reportOf_eq] at reported
  subst reported
  refine ⟨start, accepted, counted, rejected, ?_, ?_⟩
  · rintro rfl
    exact accepted.trans (by simp [Table.occurrences])
  · rintro given rfl disjoint
    refine accepted.trans ?_
    simp only [Table.occurrences, Box.weight_of_disjoint disjoint, Nat.cast_ite, Nat.cast_one,
      Nat.cast_zero, sum_boole, filter_filter, and_comm]

/-- An evaluation counts the parts whose walks accept them.  It counts the parts that the session
accepts exactly if the ratings of all parts in scope whose walks accept them can be written, and so
whenever the bounds of the scale can. -/
theorem evaluate_counts_iff (session : Session) (box : Option Box) (report : RangeReport)
    (evaluated : (session.evaluate box).outcome = .ok report) :
    session.Counts box (fun part => Accepting (session.table.walk session.config part)) report ∧
    (session.Counts box (fun part => Accepting (session.judge part).outcome) report ↔
      ∀ part, Table.InScope session.config box part →
        Accepting (session.table.walk session.config part) → part.Spellable) ∧
    (Writable session.config.scale.low → Writable session.config.scale.high →
      session.Counts box (fun part => Accepting (session.judge part).outcome) report) := by
  have counts := counts_walk evaluated
  have accepts_iff : ∀ part, Accepting (session.judge part).outcome ↔
      Accepting (session.table.walk session.config part) ∧ part.Spellable :=
    fun part => Table.accepting_classify_iff
  have judged : (∀ part, Table.InScope session.config box part →
        Accepting (session.table.walk session.config part) → part.Spellable) →
      session.Counts box (fun part => Accepting (session.judge part).outcome) report := by
    intro spellable
    apply counts.congr
    intro part inScope
    rw [accepts_iff]
    exact ⟨fun accepts => ⟨accepts, spellable part inScope accepts⟩, fun both => both.1⟩
  refine ⟨counts, ⟨?_, judged⟩, ?_⟩
  · intro countsToo part inScope accepts
    have fewer := fun part accepted => ((accepts_iff part).mp accepted).1
    exact ((accepts_iff part).mp (counts.accepts_of_accepts countsToo fewer inScope accepts)).2
  · intro low high
    exact judged fun part inScope _ => Part.spellable_of_onScale low high inScope.1

def twoStage : Session where
  table := Table.twoStage
  config := { Config.usual with scale := ⟨1, 4⟩ }
  parts := []
  valid := rfl
  accept_eq := rfl
  reject_eq := rfl

def overlapping : Box :=
  ⟨[⟨1, 3⟩, ⟨2, 9⟩, ⟨5, 4⟩], [⟨1, 4⟩], [⟨2, 2⟩], [⟨0, 1⟩]⟩

theorem evaluate_counts_iff_overlapping :
    (twoStage.evaluate (some overlapping)).outcome =
      .ok ⟨24, 6, 18, [⟨[⟨1, 2⟩, ⟨2, 2⟩], [⟨3, 4⟩], [⟨2, 2⟩], [⟨1, 1⟩]⟩], 2⟩ ∧
    ∑ part ∈ Part.allOn ⟨1, 4⟩, (Box.weight overlapping part : Int) = 24 ∧
    ∑ part ∈ Part.allOn ⟨1, 4⟩ with Accepting (twoStage.judge part).outcome,
      (Box.weight overlapping part : Int) = 6 ∧
    (twoStage.count (some overlapping)).outcome = .ok 6 ∧
    ∑ part ∈ Part.allOn ⟨1, 4⟩ with ¬Accepting (twoStage.judge part).outcome,
      (Box.weight overlapping part : Int) = 18 := by
  have evaluated : (twoStage.evaluate (some overlapping)).outcome =
      .ok ⟨24, 6, 18, [⟨[⟨1, 2⟩, ⟨2, 2⟩], [⟨3, 4⟩], [⟨2, 2⟩], [⟨1, 1⟩]⟩], 2⟩ := by
    decide +kernel
  have low : Writable twoStage.config.scale.low := by decide +kernel
  have high : Writable twoStage.config.scale.high := by decide +kernel
  have counts := (evaluate_counts_iff twoStage _ _ evaluated).2.2 low high
  exact ⟨evaluated, counts.start.symm, counts.accepted.symm, counts.counted, counts.rejected.symm⟩

def vast : Session where
  table := Table.accepting
  config := Table.vast
  parts := []
  valid := by decide +kernel
  accept_eq := rfl
  reject_eq := rfl

/-- The evaluation counts the only part in the box, but the session gets no verdict on it. -/
theorem not_counts_pinned :
    (vast.evaluate (some Table.pinned)).outcome = .ok ⟨1, 1, 0, [Table.pinned], 1⟩ ∧
    (vast.judge .outsized).outcome = .error .integerTooLong ∧
    ¬vast.Counts (some Table.pinned) (fun part => Accepting (vast.judge part).outcome)
      ⟨1, 1, 0, [Table.pinned], 1⟩ := by
  have lost : (vast.judge .outsized).outcome = .error .integerTooLong := by
    rw [outcome_judge]
    exact (Table.classify_of_walk_ok Table.walk_outsized).trans
      (if_neg Part.not_spellable_outsized)
  refine ⟨Table.evaluate_pinned, lost, ?_⟩
  intro counts
  obtain ⟨part, inScope, accepted⟩ := counts.exists_accepts (by decide)
  obtain rfl := Table.eq_outsized_of_inScope inScope
  exact Table.not_accepting_outsized accepted

end Session

end PartSorting
