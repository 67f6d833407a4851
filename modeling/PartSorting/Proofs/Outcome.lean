import Mathlib.Data.List.Forall2
import PartSorting.Fault

/-! # Outcomes of computations that may fail

A computation in stages fails as its first stage that fails, and succeeds if all of them do.  So a
list of computations succeeds with the results of all its items, in order, or it fails as the first
of them that fails. -/

set_option autoImplicit false

namespace PartSorting

variable {α β : Type}

theorem exists_of_forall₂_left {related : α → β → Prop} {items : List α} {results : List β}
    (all : List.Forall₂ related items results) {item : α} (member : item ∈ items) :
    ∃ result ∈ results, related item result := by
  induction all with
  | nil => exact absurd member List.not_mem_nil
  | cons first _ ih =>
      rcases List.mem_cons.mp member with rfl | later
      · exact ⟨_, List.mem_cons_self, first⟩
      · obtain ⟨result, found, isRelated⟩ := ih later
        exact ⟨result, List.mem_cons_of_mem _ found, isRelated⟩

theorem exists_of_forall₂_right {related : α → β → Prop} {items : List α} {results : List β}
    (all : List.Forall₂ related items results) {result : β} (member : result ∈ results) :
    ∃ item ∈ items, related item result :=
  exists_of_forall₂_left (List.Forall₂.flip all) member

namespace Outcome

theorem bind_ok {first : Except Fault α} {next : α → Except Fault β} {result : β}
    (succeeded : first >>= next = .ok result) :
    ∃ value, first = .ok value ∧ next value = .ok result := by
  cases first with
  | error fault => exact absurd succeeded (by simp [bind, Except.bind])
  | ok value => exact ⟨value, rfl, succeeded⟩

theorem bind_error {first : Except Fault α} {next : α → Except Fault β} {fault : Fault}
    (failed : first >>= next = .error fault) :
    first = .error fault ∨ ∃ value, first = .ok value ∧ next value = .error fault := by
  cases first with
  | error early => exact .inl (congrArg Except.error (Except.error.inj failed))
  | ok value => exact .inr ⟨value, rfl, failed⟩

theorem bind_eq_ok_iff {first : Except Fault α} {next : α → Except Fault β} {result : β} :
    first >>= next = .ok result ↔ ∃ value, first = .ok value ∧ next value = .ok result := by
  refine ⟨bind_ok, ?_⟩
  rintro ⟨value, rfl, succeeded⟩
  exact succeeded

theorem bind_eq_error_iff {first : Except Fault α} {next : α → Except Fault β} {fault : Fault} :
    first >>= next = .error fault ↔
      first = .error fault ∨ ∃ value, first = .ok value ∧ next value = .error fault := by
  refine ⟨bind_error, ?_⟩
  rintro (rfl | ⟨value, rfl, failed⟩)
  · rfl
  · exact failed

theorem forall₂_of_mapM_ok {f : α → Except Fault β} {items : List α} {results : List β}
    (succeeded : items.mapM f = .ok results) :
    List.Forall₂ (fun item result => f item = .ok result) items results := by
  induction items generalizing results with
  | nil =>
      obtain rfl := Except.ok.inj succeeded
      exact .nil
  | cons item items ih =>
      rw [List.mapM_cons] at succeeded
      obtain ⟨result, first, succeeded⟩ := bind_ok succeeded
      obtain ⟨later, rest, succeeded⟩ := bind_ok succeeded
      obtain rfl := Except.ok.inj succeeded
      exact .cons first (ih rest)

theorem mapM_ok_of_forall₂ {f : α → Except Fault β} {items : List α} {results : List β}
    (all : List.Forall₂ (fun item result => f item = .ok result) items results) :
    items.mapM f = .ok results := by
  induction all with
  | nil => rfl
  | cons first _ ih =>
      rw [List.mapM_cons, first, ih]
      rfl

theorem mapM_eq_ok_iff {f : α → Except Fault β} {items : List α} {results : List β} :
    items.mapM f = .ok results ↔
      List.Forall₂ (fun item result => f item = .ok result) items results :=
  ⟨forall₂_of_mapM_ok, mapM_ok_of_forall₂⟩

/-- A sequence fails as the first of its items that fails. -/
theorem mapM_eq_error_iff {f : α → Except Fault β} {items : List α} {fault : Fault} :
    items.mapM f = .error fault ↔
      ∃ before item after, items = before ++ item :: after ∧
        (∀ earlier ∈ before, ∃ result, f earlier = .ok result) ∧ f item = .error fault := by
  induction items with
  | nil => simp [pure, Except.pure]
  | cons first rest ih =>
      rw [List.mapM_cons, bind_eq_error_iff]
      constructor
      · rintro (failed | ⟨result, succeeded, failed⟩)
        · exact ⟨[], first, rest, rfl, fun _ member => absurd member List.not_mem_nil, failed⟩
        · obtain failed | ⟨_, _, impossible⟩ := bind_error failed
          · obtain ⟨before, item, after, rfl, earlier, here⟩ := ih.mp failed
            refine ⟨first :: before, item, after, rfl, ?_, here⟩
            exact List.forall_mem_cons.mpr ⟨⟨result, succeeded⟩, earlier⟩
          · contradiction
      · rintro ⟨before, item, after, split, earlier, here⟩
        cases before with
        | nil =>
            obtain ⟨rfl, _⟩ := List.cons.inj split
            exact .inl here
        | cons other before =>
            obtain ⟨rfl, remaining⟩ := List.cons.inj split
            obtain ⟨⟨result, succeeded⟩, earlier⟩ := List.forall_mem_cons.mp earlier
            refine .inr ⟨result, succeeded, ?_⟩
            rw [ih.mpr ⟨before, item, after, remaining, earlier, here⟩]
            rfl

theorem exists_of_mapM_error {f : α → Except Fault β} {items : List α} {fault : Fault}
    (failed : items.mapM f = .error fault) : ∃ item ∈ items, f item = .error fault := by
  obtain ⟨before, item, after, rfl, _, here⟩ := mapM_eq_error_iff.mp failed
  exact ⟨item, List.mem_append_right before List.mem_cons_self, here⟩

theorem exists_mapM_ok_iff {f : α → Except Fault β} {items : List α} :
    (∃ results, items.mapM f = .ok results) ↔ ∀ item ∈ items, ∃ result, f item = .ok result := by
  constructor
  · rintro ⟨results, succeeded⟩ item member
    obtain ⟨result, _, here⟩ := exists_of_forall₂_left (forall₂_of_mapM_ok succeeded) member
    exact ⟨result, here⟩
  · intro each
    cases outcome : items.mapM f with
    | ok results => exact ⟨results, rfl⟩
    | error fault =>
        obtain ⟨item, member, failed⟩ := exists_of_mapM_error outcome
        obtain ⟨result, succeeded⟩ := each item member
        rw [failed] at succeeded
        contradiction

theorem mapM_eq_error_or {f g : α → Except Fault β} {items : List α} {fault : Fault}
    (each : ∀ item ∈ items, f item = .error fault ∨ f item = g item) :
    items.mapM f = .error fault ∨ items.mapM f = items.mapM g := by
  induction items with
  | nil => exact .inr rfl
  | cons item items ih =>
      obtain ⟨first, rest⟩ := List.forall_mem_cons.mp each
      rw [List.mapM_cons, List.mapM_cons]
      rcases first with failed | same
      · rw [failed]
        exact .inl rfl
      · rw [same]
        cases g item with
        | error early => exact .inr rfl
        | ok result =>
            rcases ih rest with failed | sameRest
            · rw [failed]
              exact .inl rfl
            · rw [sameRest]
              exact .inr rfl

/-- A fold fails in the step that fails first, at the state that the items before it have made. -/
theorem foldlM_eq_error_iff {σ : Type} {step : σ → α → Except Fault σ} {items : List α}
    {state : σ} {fault : Fault} :
    items.foldlM step state = .error fault ↔
      ∃ before item after reached, items = before ++ item :: after ∧
        before.foldlM step state = .ok reached ∧ step reached item = .error fault := by
  induction items generalizing state with
  | nil => simp [pure, Except.pure]
  | cons first rest ih =>
      rw [List.foldlM_cons, bind_eq_error_iff]
      constructor
      · rintro (failed | ⟨next, succeeded, failed⟩)
        · exact ⟨[], first, rest, state, rfl, rfl, failed⟩
        · obtain ⟨before, item, after, reached, rfl, run, here⟩ := ih.mp failed
          refine ⟨first :: before, item, after, reached, rfl, ?_, here⟩
          rw [List.foldlM_cons, succeeded]
          exact run
      · rintro ⟨before, item, after, reached, split, run, here⟩
        cases before with
        | nil =>
            obtain ⟨rfl, _⟩ := List.cons.inj split
            obtain rfl := Except.ok.inj run
            exact .inl here
        | cons other before =>
            obtain ⟨rfl, remaining⟩ := List.cons.inj split
            obtain ⟨next, succeeded, run⟩ := bind_ok run
            have later := ih.mpr ⟨before, item, after, reached, remaining, run, here⟩
            exact .inr ⟨next, succeeded, later⟩

end Outcome

end PartSorting
