import Mathlib.Data.Set.Card
import PartSorting.Proofs.Table.Report
import PartSorting.Proofs.Workflow.Choice

/-! # One visit for each opening of choices

The choices that decide on a part along its path have openings, the first choices of it but not all
of them.  A sweep of boxes visits workflows once for each opening that some part of the box has: a
box is never empty, and the boxes of different visits have been decided on differently.  The walks
of the parts have these openings; a judgement has none if the part cannot be written. -/

set_option autoImplicit false

namespace PartSorting

namespace Table

variable {table : Table} {config : Config} {box : Option Box} {detectCycles : Bool}
  {scale : Interval} {part : Part} {depth : Nat} {path : List String} {name : String}

def choicesAlong (table : Table) (part : Part) (path : List String) : List (Option Nat) :=
  path.filterMap fun name => (table.find? name).map fun workflow => workflow.choice part

theorem choicesAlong_cons {workflow : Workflow} (found : table.find? name = some workflow)
    (path : List String) :
    table.choicesAlong part (name :: path) =
      workflow.choice part :: table.choicesAlong part path := by
  simp only [choicesAlong, List.filterMap_cons, found, Option.map_some]

theorem path_of_walkFrom {verdict : Verdict}
    (walked : table.walkFrom detectCycles part depth path name = .ok verdict) :
    ∃ passed, verdict.path = path ++ passed := by
  induction depth generalizing path name with
  | zero => contradiction
  | succ depth ih =>
      cases arrived : table.arrive detectCycles path name with
      | error fault =>
          rw [walkFrom_of_arrive_error arrived] at walked
          contradiction
      | ok next =>
          cases next with
          | none =>
              rw [walkFrom_of_arrive_none arrived] at walked
              obtain rfl := Except.ok.inj walked
              exact ⟨[], (List.append_nil path).symm⟩
          | some workflow =>
              rw [walkFrom_of_arrive_some arrived] at walked
              obtain ⟨passed, same⟩ := ih walked
              exact ⟨name :: passed, by rw [same, List.append_assoc, List.singleton_append]⟩

/-- A part that has come along a path to a name walks on to a sink, and the choices are the first
on the path it passes, but not all of them. -/
def Opens (table : Table) (detectCycles : Bool) (depth : Nat) (path : List String) (name : String)
    (part : Part) (choices : List (Option Nat)) : Prop :=
  ∃ verdict passed k, table.walkFrom detectCycles part depth path name = .ok verdict ∧
    verdict.path = path ++ passed ∧ k < passed.length ∧
    choices = (table.choicesAlong part passed).take k

theorem not_opens_of_arrive_none {choices : List (Option Nat)}
    (arrived : table.arrive detectCycles path name = .ok none) :
    ¬table.Opens detectCycles (depth + 1) path name part choices := by
  rintro ⟨verdict, passed, k, walked, samePath, inside, _⟩
  rw [walkFrom_of_arrive_none arrived] at walked
  obtain rfl := Except.ok.inj walked
  obtain rfl := List.self_eq_append_right.mp samePath
  exact absurd inside (Nat.not_lt_zero k)

/-- At a workflow an opening is empty, or it is the choice of the workflow before an opening at the
next name. -/
theorem opens_iff_of_arrive_some {workflow : Workflow} {choices : List (Option Nat)}
    (arrived : table.arrive detectCycles path name = .ok (some workflow))
    (walks : ∃ verdict, table.walkFrom detectCycles part (depth + 1) path name = .ok verdict) :
    table.Opens detectCycles (depth + 1) path name part choices ↔
      choices = [] ∨ ∃ later, choices = workflow.choice part :: later ∧
        table.Opens detectCycles depth (path ++ [name]) (workflow.route part) part later := by
  have found := (name_of_arrive arrived).1
  simp only [walkFrom_of_arrive_some arrived] at walks
  have extended : ∀ passed, path ++ [name] ++ passed = path ++ name :: passed := by
    intro passed
    rw [List.append_assoc, List.singleton_append]
  constructor
  · rintro ⟨verdict, passed, k, walked, samePath, inside, rfl⟩
    rw [walkFrom_of_arrive_some arrived] at walked
    obtain ⟨later, laterPath⟩ := path_of_walkFrom walked
    rw [extended, samePath] at laterPath
    obtain rfl := List.append_cancel_left laterPath
    cases k with
    | zero => exact .inl rfl
    | succ k =>
        refine .inr ⟨(table.choicesAlong part later).take k, ?_, verdict, later, k, walked, ?_,
          Nat.lt_of_succ_lt_succ inside, rfl⟩
        · rw [choicesAlong_cons found, List.take_succ_cons]
        · rw [samePath, extended]
  · rintro (rfl | ⟨later, rfl, verdict, passed, k, walked, samePath, inside, rfl⟩)
    · obtain ⟨verdict, walked⟩ := walks
      obtain ⟨passed, samePath⟩ := path_of_walkFrom walked
      refine ⟨verdict, name :: passed, 0, (walkFrom_of_arrive_some arrived).trans walked, ?_,
        Nat.zero_lt_succ _, rfl⟩
      rw [samePath, extended]
    · refine ⟨verdict, name :: passed, k + 1, (walkFrom_of_arrive_some arrived).trans walked, ?_,
        Nat.succ_lt_succ inside, ?_⟩
      · rw [samePath, extended]
      · rw [choicesAlong_cons found, List.take_succ_cons]

theorem walks_of_swept {load : Box} {arrivals : Arrivals Box} (occupied : Box.Occupied scale load)
    (swept : (table.sweepFrom detectCycles (pushPieces scale) depth path (name, load)).outcome =
      .ok arrivals) :
    ∀ part ∈ load, ∃ verdict, table.walkFrom detectCycles part depth path name = .ok verdict := by
  intro part inside
  have sighted := sighted_sweepFrom (faithful_pushPieces scale) _ _ _ _ _ occupied swept part
  obtain ⟨verdict, walked, _⟩ := sighted.2 (Box.weight_pos_iff.mpr inside)
  exact ⟨verdict, walked⟩

section Pieces
variable {choice : Part → Option Nat} {opens : String → Part → List (Option Nat) → Prop}
  {pieces : List (String × Box)}

def openings (opens : String → Part → List (Option Nat) → Prop) (piece : String × Box) :
    Set (List (Option Nat)) :=
  {choices | ∃ part ∈ piece.2, opens piece.1 part choices}

def onceChosen (choice : Part → Option Nat) (opens : String → Part → List (Option Nat) → Prop)
    (pieces : List (String × Box)) : Set (List (Option Nat)) :=
  {choices | ∃ piece ∈ pieces, ∃ part ∈ piece.2, ∃ later,
    choices = choice part :: later ∧ opens piece.1 part later}

theorem onceChosen_reverse (pieces : List (String × Box)) :
    onceChosen choice opens pieces.reverse = onceChosen choice opens pieces := by
  simp only [onceChosen, List.mem_reverse]

theorem onceChosen_cons {piece : String × Box} {chosen : Option Nat}
    (uniform : ∀ part ∈ piece.2, choice part = chosen) (pieces : List (String × Box)) :
    onceChosen choice opens (piece :: pieces) =
      (chosen :: ·) '' openings opens piece ∪ onceChosen choice opens pieces := by
  ext choices
  constructor
  · intro opened
    obtain ⟨other, member, part, inside, later, rfl, opensLater⟩ := opened
    rcases List.mem_cons.mp member with rfl | isLater
    · exact .inl ⟨later, ⟨part, inside, opensLater⟩,
        congrArg (· :: later) (uniform part inside).symm⟩
    · exact .inr ⟨other, isLater, part, inside, later, rfl, opensLater⟩
  · intro opened
    rcases opened with ⟨later, ⟨part, inside, opensLater⟩, rfl⟩ | ⟨other, member, found⟩
    · exact ⟨piece, List.mem_cons_self, part, inside, later,
        congrArg (· :: later) (uniform part inside).symm, opensLater⟩
    · exact ⟨other, List.mem_cons_of_mem _ member, found⟩

/-- What is opened once a choice has been made is told apart by this choice, which is one for all
parts of a piece and another one for the parts of each other piece. -/
theorem encard_onceChosen {Result : Type} {counted : Result → Nat} {results : List Result}
    (separated : Workflow.Separated choice pieces)
    (all : List.Forall₂ (fun piece result => (openings opens piece).encard = counted result)
      pieces results) :
    (onceChosen choice opens pieces).encard = (results.map counted).sum := by
  induction all with
  | nil => simp [onceChosen]
  | @cons piece result pieces results first _ ih =>
      obtain ⟨chosen, uniform⟩ := separated.uniform piece List.mem_cons_self
      have apart := (List.pairwise_cons.mp separated.apart).1
      have disjoint : Disjoint ((chosen :: ·) '' openings opens piece)
          (onceChosen choice opens pieces) := by
        apply Set.disjoint_left.mpr
        intro choices inFirst inLater
        obtain ⟨later, ⟨part, inside, _⟩, rfl⟩ := inFirst
        obtain ⟨other, member, otherPart, otherInside, _, same, _⟩ := inLater
        apply apart other member part inside otherPart otherInside
        rw [uniform part inside]
        exact (List.cons.inj same).1
      rw [onceChosen_cons uniform, Set.encard_union_eq disjoint, ih separated.of_cons,
        List.cons_injective.encard_image, first, List.map_cons, List.sum_cons, Nat.cast_add]

end Pieces

theorem openings_of_arrive_none {load : Box}
    (arrived : table.arrive detectCycles path name = .ok none) :
    openings (table.Opens detectCycles (depth + 1) path) (name, load) = ∅ := by
  apply Set.eq_empty_of_forall_notMem
  intro choices opened
  obtain ⟨part, _, opens⟩ := opened
  exact not_opens_of_arrive_none arrived opens

theorem openings_of_arrive_some {workflow : Workflow} {load : Box}
    (arrived : table.arrive detectCycles path name = .ok (some workflow))
    (occupied : Box.Occupied scale load)
    (walks : ∀ part ∈ load, ∃ verdict,
      table.walkFrom detectCycles part (depth + 1) path name = .ok verdict) :
    openings (table.Opens detectCycles (depth + 1) path) (name, load) =
      insert [] (onceChosen workflow.choice (table.Opens detectCycles depth (path ++ [name]))
        (workflow.divide scale load).pieces) := by
  have within := occupied.within
  ext choices
  constructor
  · intro opened
    obtain ⟨part, inside, opens⟩ := opened
    rcases (opens_iff_of_arrive_some arrived (walks part inside)).mp opens with
      rfl | ⟨later, rfl, opensLater⟩
    · exact .inl rfl
    · obtain ⟨piece, member, inPiece⟩ := Workflow.exists_piece _ _ within inside
      have routed : piece.1 = workflow.route part :=
        (Workflow.of_mem_piece within member inPiece).1
      rw [← routed] at opensLater
      exact .inr ⟨piece, member, part, inPiece, later, rfl, opensLater⟩
  · intro opened
    rcases opened with rfl | ⟨piece, member, part, inPiece, later, rfl, opensLater⟩
    · obtain ⟨part, occurs⟩ := occupied.exists_part
      have inside := Box.weight_pos_iff.mp occurs
      exact ⟨part, inside, (opens_iff_of_arrive_some arrived (walks part inside)).mpr (.inl rfl)⟩
    · have inside := Workflow.mem_box_of_mem_piece within member inPiece
      rw [(Workflow.of_mem_piece within member inPiece).1] at opensLater
      exact ⟨part, inside, (opens_iff_of_arrive_some arrived (walks part inside)).mpr
        (.inr ⟨later, rfl, opensLater⟩)⟩

/-- A sweep visits workflows as often as the parts of its load have different openings. -/
theorem encard_openings {load : Box} {arrivals : Arrivals Box}
    (occupied : Box.Occupied scale load)
    (swept : (table.sweepFrom detectCycles (pushPieces scale) depth path (name, load)).outcome =
      .ok arrivals) :
    (openings (table.Opens detectCycles depth path) (name, load)).encard = arrivals.visits := by
  induction depth generalizing path name load arrivals with
  | zero => contradiction
  | succ depth ih =>
      have within := occupied.within
      rcases sweepFrom_box_cases within swept with
        ⟨arrived, rfl⟩ | ⟨rest, workflow, results, depthEq, arrived, _, followed, rfl⟩
      · rw [openings_of_arrive_none arrived, Set.encard_empty]
        rfl
      · obtain rfl := Nat.succ.inj depthEq
        have separated := (Workflow.separated_divideBy workflow.fallback workflow.rules load
          within).reverse
        have later := encard_onceChosen separated
          (followed.imp fun piece result both => @ih _ piece.1 piece.2 result both.1 both.2)
        have notEmpty : [] ∉ onceChosen workflow.choice
            (table.Opens detectCycles depth (path ++ [name]))
            (workflow.divide scale load).pieces := by
          intro opened
          obtain ⟨_, _, _, _, _, impossible, _⟩ := opened
          exact List.cons_ne_nil _ _ impossible.symm
        rw [openings_of_arrive_some arrived occupied (walks_of_swept occupied swept),
          Set.encard_insert_of_notMem notEmpty, ← onceChosen_reverse, Arrivals.visits_afterVisit,
          Nat.cast_add]
        exact congrArg (· + 1) later

/-- A box that holds the part comes to each name that the part passes. -/
theorem reaches_of_walk {load : Box} {arrivals : Arrivals Box} {verdict : Verdict}
    (within : Box.Within scale load)
    (swept : (table.sweepFrom detectCycles (pushPieces scale) depth path (name, load)).outcome =
      .ok arrivals)
    (inside : part ∈ load)
    (walked : table.walkFrom detectCycles part depth path name = .ok verdict)
    {before after : List String} {passed : String}
    (samePath : verdict.path = path ++ (before ++ passed :: after)) :
    ∃ reached, Reaches table detectCycles (pushPieces scale) ⟨path, name, load⟩
      ⟨path ++ before, passed, reached⟩ ∧ part ∈ reached := by
  induction depth generalizing path name load arrivals before with
  | zero => contradiction
  | succ depth ih =>
      rcases sweepFrom_box_cases within swept with
        ⟨arrived, rfl⟩ | ⟨rest, workflow, results, depthEq, arrived, divided, followed, rfl⟩
      · rw [walkFrom_of_arrive_none arrived] at walked
        obtain rfl := Except.ok.inj walked
        have nothing := List.self_eq_append_right.mp samePath
        exact absurd nothing (by simp)
      · obtain rfl := Nat.succ.inj depthEq
        obtain ⟨piece, member, inPiece⟩ :=
          Workflow.exists_piece workflow.fallback workflow.rules within inside
        have routed : piece.1 = workflow.route part :=
          (Workflow.of_mem_piece within member inPiece).1
        obtain ⟨result, _, occupied, follow⟩ :=
          exists_of_forall₂_left followed (List.mem_reverse.mpr member)
        rw [walkFrom_of_arrive_some arrived, ← routed] at walked
        obtain ⟨later, laterPath⟩ := path_of_walkFrom walked
        rw [laterPath, List.append_assoc, List.singleton_append] at samePath
        have rest := List.append_cancel_left samePath
        cases before with
        | nil =>
            obtain ⟨rfl, _⟩ := List.cons.inj rest
            rw [List.append_nil]
            exact ⟨load, .refl, inside⟩
        | cons first before =>
            obtain ⟨rfl, rfl⟩ := List.cons.inj rest
            obtain ⟨reached, reaches, holds⟩ := ih occupied.within follow inPiece walked laterPath
            have move := Moves.piece arrived divided member
            rw [List.append_assoc, List.singleton_append] at reaches
            exact ⟨reached, .head move reaches, holds⟩

theorem visits_eq_zero_iff {Load : Type} {divide : Divider Load} {load : Load}
    {arrivals : Arrivals Load}
    (swept : (table.sweepFrom detectCycles divide depth path (name, load)).outcome =
      .ok arrivals) : arrivals.visits = 0 ↔ table.isSink name = true := by
  rcases sweepFrom_ok_cases swept with
    ⟨arrived, rfl⟩ | ⟨_, workflow, _, results, _, arrived, _, _, rfl⟩
  · exact iff_of_true rfl (isSink_of_arrive arrived)
  · have notSink := isSink_of_mem_names (mem_names_of_find? (name_of_arrive arrived).1)
    rw [Arrivals.visits_afterVisit, notSink]
    exact iff_of_false (Nat.succ_ne_zero _) Bool.false_ne_true

def Begins (table : Table) (part : Part) (path : List String) (choices : List (Option Nat)) :
    Prop :=
  ∃ k < path.length, choices = (table.choicesAlong part path).take k

/-- The first choices on the path that a way of judging gives for a part that is to be evaluated,
but not all of them. -/
def IsOpening (table : Table) (config : Config) (box : Option Box)
    (judge : Part → Except Fault Verdict) (choices : List (Option Nat)) : Prop :=
  ∃ part verdict, InScope config box part ∧ judge part = .ok verdict ∧
    table.Begins part verdict.path choices

/-- Workflows are visited once for each opening.  No box on the way is empty, and a part that is to
be evaluated comes in some box to every name on its path.  Nothing is visited exactly if there is
nothing to start with, or if the entry is a sink. -/
structure OncePerOpening (table : Table) (config : Config) (box : Option Box)
    (judge : Part → Except Fault Verdict) (report : RangeReport) : Prop where
  counted : {choices | table.IsOpening config box judge choices}.encard = report.visits
  inhabited : 0 < Box.volume (startBox config box) →
    ∀ transit, table.Loads config box transit → ∃ part, part ∈ transit.load
  met : ∀ part verdict, InScope config box part → judge part = .ok verdict →
    ∀ before name after, verdict.path = before ++ name :: after →
      ∃ load, table.Loads config box ⟨before, name, load⟩ ∧ part ∈ load
  none : report.visits = 0 ↔
    Box.volume (startBox config box) = 0 ∨ table.isSink config.entry = true

theorem isOpening_walk_iff {choices : List (Option Nat)} :
    table.IsOpening config box (table.walk config) choices ↔
      choices ∈ openings (table.Opens config.detectCycles table.depth [])
        (config.entry, startBox config box) := by
  constructor
  · intro opening
    obtain ⟨part, verdict, inScope, walked, k, short, same⟩ := opening
    exact ⟨part, mem_startBox_iff.mpr inScope, verdict, verdict.path, k, walked, rfl, short, same⟩
  · intro opened
    obtain ⟨part, inside, verdict, passed, k, walked, samePath, short, same⟩ := opened
    rw [List.nil_append] at samePath
    subst samePath
    exact ⟨part, verdict, mem_startBox_iff.mp inside, walked, k, short, same⟩

theorem oncePerOpening_walk (proper : config.scale.Proper) {report : RangeReport}
    (evaluated : (table.evaluate config box).outcome = .ok report) :
    table.OncePerOpening config box (table.walk config) report := by
  have within := within_startBox proper box
  obtain ⟨arrivals, rfl, ⟨empty, rfl⟩ | ⟨positive, swept⟩⟩ := evaluate_ok_cases evaluated
  · have nobody : ∀ part, ¬InScope config box part := by
      intro part inScope
      have occurs := Box.weight_pos_iff.mpr (mem_startBox_iff.mpr inScope)
      exact empty ((Box.volume_pos_iff within).mpr ⟨part, occurs⟩)
    have noVolume := Int.le_antisymm (Int.not_lt.mp empty) (Box.volume_nonneg within)
    refine ⟨?_, fun positive => absurd positive empty, ?_, iff_of_true rfl (.inl noVolume)⟩
    · have nothing : {choices | table.IsOpening config box (table.walk config) choices} = ∅ := by
        apply Set.eq_empty_of_forall_notMem
        intro choices opening
        obtain ⟨part, _, inScope, _⟩ := opening
        exact nobody part inScope
      rw [nothing, Set.encard_empty]
      rfl
    · intro part _ inScope
      exact absurd inScope (nobody part)
  · have occupied : Box.Occupied config.scale (startBox config box) := ⟨within, positive⟩
    refine ⟨?_, ?_, ?_, ?_⟩
    · have same : {choices | table.IsOpening config box (table.walk config) choices} =
          openings (table.Opens config.detectCycles table.depth [])
            (config.entry, startBox config box) :=
        Set.ext fun choices => isOpening_walk_iff
      rw [same]
      exact encard_openings occupied swept
    · intro _ transit loads
      have held := ((faithful_pushPieces config.scale).of_reaches loads occupied).1
      obtain ⟨part, occurs⟩ := held.exists_part
      exact ⟨part, Box.weight_pos_iff.mp occurs⟩
    · intro part verdict inScope walked before name after samePath
      exact reaches_of_walk within swept (mem_startBox_iff.mpr inScope) walked samePath
    · have noVolume : ¬Box.volume (startBox config box) = 0 := Int.ne_of_gt positive
      rw [reportOf_eq, visits_eq_zero_iff swept, or_iff_right noVolume]

theorem isOpening_classify_iff {choices : List (Option Nat)} :
    table.IsOpening config box (table.classify config) choices ↔
      ∃ part verdict, InScope config box part ∧ part.Spellable ∧
        table.walk config part = .ok verdict ∧ table.Begins part verdict.path choices := by
  simp only [IsOpening, classify_eq_ok_iff]
  constructor
  · intro opening
    obtain ⟨part, verdict, inScope, ⟨walked, spellable⟩, begins⟩ := opening
    exact ⟨part, verdict, inScope, spellable, walked, begins⟩
  · intro opening
    obtain ⟨part, verdict, inScope, spellable, walked, begins⟩ := opening
    exact ⟨part, verdict, inScope, ⟨walked, spellable⟩, begins⟩

/-- An evaluation visits workflows once for each opening of choices on the walks of the parts
evaluated.  These are the openings of the judgements exactly if each of them is one of a part whose
ratings can be written. -/
theorem oncePerOpening_evaluate_iff (proper : config.scale.Proper) {report : RangeReport}
    (evaluated : (table.evaluate config box).outcome = .ok report) :
    table.OncePerOpening config box (table.walk config) report ∧
    (table.OncePerOpening config box (table.classify config) report ↔
      ∀ choices, table.IsOpening config box (table.walk config) choices →
        ∃ part verdict, InScope config box part ∧ part.Spellable ∧
          table.walk config part = .ok verdict ∧ table.Begins part verdict.path choices) := by
  have once := oncePerOpening_walk proper evaluated
  simp only [← isOpening_classify_iff]
  have within : {choices | table.IsOpening config box (table.classify config) choices} ⊆
      {choices | table.IsOpening config box (table.walk config) choices} := by
    intro choices opening
    obtain ⟨part, verdict, inScope, classified, begins⟩ := opening
    exact ⟨part, verdict, inScope, (classify_eq_ok_iff.mp classified).1, begins⟩
  refine ⟨once, ?_, ?_⟩
  · intro judged
    -- The openings of the judgements are some of the others and as many, and they are finite.
    have finite : {choices | table.IsOpening config box (table.classify config) choices}.Finite :=
      Set.finite_of_encard_eq_coe judged.counted
    have same := finite.eq_of_subset_of_encard_le within
      (le_of_eq (once.counted.trans judged.counted.symm))
    exact fun choices opening => same.symm.subset opening
  · intro all
    refine ⟨?_, once.inhabited, ?_, once.none⟩
    · rw [← once.counted]
      exact congrArg Set.encard (Set.Subset.antisymm within all)
    · intro part verdict inScope classified
      exact once.met part verdict inScope (classify_eq_ok_iff.mp classified).1

theorem oncePerOpening_evaluate_iff_rejoining :
    let config : Config := { Config.usual with scale := ⟨1, 4⟩ }
    let report : RangeReport :=
      ⟨256, 48, 208, [⟨[⟨3, 4⟩], [⟨3, 4⟩], [⟨1, 1⟩], [⟨1, 4⟩]⟩,
        ⟨[⟨1, 2⟩], [⟨1, 4⟩], [⟨1, 1⟩], [⟨1, 4⟩]⟩], 3⟩
    config.scale.Proper ∧ (rejoining.evaluate config none).outcome = .ok report ∧
      rejoining.OncePerOpening config none (rejoining.classify config) report ∧
      {choices | rejoining.IsOpening config none (rejoining.classify config) choices}.encard =
        3 := by
  intro config report
  have proper : config.scale.Proper := by decide
  have evaluated : (rejoining.evaluate config none).outcome = .ok report := by decide +kernel
  have low : Writable config.scale.low := by decide +kernel
  have high : Writable config.scale.high := by decide +kernel
  have once : rejoining.OncePerOpening config none (rejoining.classify config) report := by
    apply (oncePerOpening_evaluate_iff proper evaluated).2.mpr
    intro choices opening
    obtain ⟨part, verdict, inScope, walked, begins⟩ := opening
    exact ⟨part, verdict, inScope, Part.spellable_of_onScale low high inScope.1, walked, begins⟩
  exact ⟨proper, evaluated, once, once.counted⟩

/-- One workflow is visited, but the only part in scope gets no verdict and so has no opening. -/
theorem not_oncePerOpening_pinned :
    (accepting.evaluate vast (some pinned)).outcome = .ok ⟨1, 1, 0, [pinned], 1⟩ ∧
    {choices | accepting.IsOpening vast (some pinned) (accepting.classify vast) choices} = ∅ ∧
    ¬accepting.OncePerOpening vast (some pinned) (accepting.classify vast)
      ⟨1, 1, 0, [pinned], 1⟩ := by
  have nothing :
      {choices | accepting.IsOpening vast (some pinned) (accepting.classify vast) choices} =
        ∅ := by
    apply Set.eq_empty_of_forall_notMem
    intro choices opening
    obtain ⟨part, verdict, inScope, classified, _⟩ := opening
    obtain rfl := eq_outsized_of_inScope inScope
    exact Part.not_spellable_outsized (classify_eq_ok_iff.mp classified).2
  refine ⟨evaluate_pinned, nothing, ?_⟩
  intro once
  have counted := once.counted
  rw [nothing, Set.encard_empty] at counted
  exact absurd counted (by simp)

end Table

end PartSorting
