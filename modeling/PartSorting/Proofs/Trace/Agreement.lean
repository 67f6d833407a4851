import Mathlib.Data.List.Forall2
import PartSorting.Fault

/-! # Computations that end alike

Two outcomes agree when both computations succeed, with results that are related, or both fail
with the same fault.  Agreement passes through sequences, so computations that agree step by step
meet the same first fault. -/

set_option autoImplicit false

namespace PartSorting

variable {α β γ δ : Type}

inductive Agree (related : α → β → Prop) : Except Fault α → Except Fault β → Prop where
  | ok {first : α} {second : β} (isRelated : related first second) :
      Agree related (.ok first) (.ok second)
  | error (fault : Fault) : Agree related (.error fault) (.error fault)

namespace Agree

theorem bind {related : α → β → Prop} {resulting : γ → δ → Prop}
    {first : Except Fault α} {second : Except Fault β} {next : α → Except Fault γ}
    {later : β → Except Fault δ} (agree : Agree related first second)
    (continued : ∀ value other, related value other → Agree resulting (next value) (later other)) :
    Agree resulting (first >>= next) (second >>= later) := by
  cases agree with
  | ok isRelated => exact continued _ _ isRelated
  | error fault => exact .error fault

theorem mapM {related : α → β → Prop} {resulting : γ → δ → Prop} {items : List α}
    {others : List β} {f : α → Except Fault γ} {g : β → Except Fault δ}
    (all : List.Forall₂ related items others)
    (each : ∀ item other, related item other → Agree resulting (f item) (g other)) :
    Agree (List.Forall₂ resulting) (items.mapM f) (others.mapM g) := by
  induction all with
  | nil => exact .ok .nil
  | cons first _ ih =>
      rw [List.mapM_cons, List.mapM_cons]
      refine (each _ _ first).bind fun result other isRelated => ih.bind ?_
      intro results others areRelated
      exact .ok (.cons isRelated areRelated)

end Agree

end PartSorting
