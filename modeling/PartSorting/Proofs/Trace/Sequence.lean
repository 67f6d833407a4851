import PartSorting.Proofs.Outcome
import PartSorting.Trace

/-! # Traced computations in sequence

What a sequence of computations reports on the way has no influence on its outcome.  Sequences are
the same when their stages are the same as far as they are carried out. -/

set_option autoImplicit false

namespace PartSorting.Traced

variable {α β : Type}

theorem bind_congr_of_ok {first : Traced α} {next later : α → Traced β}
    (same : ∀ value, first.outcome = .ok value → next value = later value) :
    first >>= next = first >>= later := by
  rw [bind_def, bind_def]
  cases outcome : first.outcome with
  | error fault => rfl
  | ok value => simp only [same value outcome]

theorem mapM_congr {f g : α → Traced β} {items : List α} (same : ∀ item ∈ items, f item = g item) :
    items.mapM f = items.mapM g := by
  induction items with
  | nil => rfl
  | cons item items ih =>
      obtain ⟨first, rest⟩ := List.forall_mem_cons.mp same
      rw [List.mapM_cons, List.mapM_cons, first, ih rest]

/-- Sequences are the same when no item fails otherwise than is allowed before the end is reached.
After a fault nothing is carried out, so nothing is said of the items there. -/
theorem mapM_congr_of_allowed {f g : α → Traced β} {items : List α} {allowed : Fault → Prop}
    (same : ∀ item ∈ items,
      (∀ fault, (f item).outcome = .error fault → allowed fault) → g item = f item)
    (clear : ∀ fault, (items.mapM f).outcome = .error fault → allowed fault) :
    items.mapM g = items.mapM f := by
  induction items with
  | nil => rfl
  | cons item items ih =>
      obtain ⟨first, rest⟩ := List.forall_mem_cons.mp same
      rw [List.mapM_cons] at clear
      have firstClear : ∀ fault, (f item).outcome = .error fault → allowed fault := by
        intro fault failed
        apply clear
        rw [outcome_bind, failed]
        rfl
      rw [List.mapM_cons, List.mapM_cons, first firstClear]
      apply bind_congr_of_ok
      intro value succeeded
      have restClear : ∀ fault, (items.mapM f).outcome = .error fault → allowed fault := by
        intro fault failed
        apply clear
        rw [outcome_bind, succeeded]
        show (items.mapM f >>= fun values => pure (value :: values)).outcome = .error fault
        rw [outcome_bind, failed]
        rfl
      rw [ih rest restClear]

theorem outcome_mapM (f : α → Traced β) (items : List α) :
    (items.mapM f).outcome = items.mapM fun item => (f item).outcome := by
  induction items with
  | nil => rfl
  | cons item items ih =>
      simp only [List.mapM_cons, outcome_bind, outcome_pure, ih]
      rfl

end PartSorting.Traced
