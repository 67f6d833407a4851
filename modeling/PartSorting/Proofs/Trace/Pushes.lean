import Mathlib.Algebra.BigOperators.Group.List.Basic
import Mathlib.Algebra.Ring.Int.Defs
import PartSorting.Proofs.Trace.Sequence

/-! # What a computation has pushed

Among the events of a computation are volumes that were pushed from one name to another.  What
flows into a name and out of it are totals over these pushes, and totals of lists add up. -/

set_option autoImplicit false

namespace PartSorting

section Amounts
variable {α β : Type} {name : α → String} {amount : α → Int}

def amountAt (name : α → String) (amount : α → Int) (items : List α) (wanted : String) : Int :=
  ((items.filter fun item => name item == wanted).map amount).sum

theorem amountAt_append (first second : List α) (wanted : String) :
    amountAt name amount (first ++ second) wanted =
      amountAt name amount first wanted + amountAt name amount second wanted := by
  simp only [amountAt, List.filter_append, List.map_append, List.sum_append]

theorem amountAt_singleton (item : α) (wanted : String) :
    amountAt name amount [item] wanted = if name item = wanted then amount item else 0 := by
  by_cases same : name item = wanted
  · simp [amountAt, same]
  · simp [amountAt, same]

theorem amountAt_perm {items others : List α} (same : items.Perm others) (wanted : String) :
    amountAt name amount items wanted = amountAt name amount others wanted :=
  ((same.filter _).map amount).sum_eq

theorem amountAt_map (f : β → α) (items : List β) (wanted : String) :
    amountAt name amount (items.map f) wanted =
      amountAt (fun item => name (f item)) (fun item => amount (f item)) items wanted := by
  simp only [amountAt, List.filter_map, List.map_map]
  rfl

theorem amountAt_of_absent {items : List α} {wanted : String}
    (absent : ∀ item ∈ items, name item ≠ wanted) : amountAt name amount items wanted = 0 := by
  have nothing : (items.filter fun item => name item == wanted) = [] := by
    apply List.filter_eq_nil_iff.mpr
    intro item member
    simpa using absent item member
  rw [amountAt, nothing]
  rfl

theorem amountAt_const (single : String) (items : List α) (wanted : String) :
    amountAt (fun _ => single) amount items wanted =
      if single = wanted then (items.map amount).sum else 0 := by
  by_cases same : single = wanted
  · simp [amountAt, same]
  · rw [if_neg same]
    exact amountAt_of_absent fun _ _ => same

end Amounts

structure Push where
  source : String
  target : String
  volume : Int
  deriving DecidableEq

namespace Push

def inflow (pushes : List Push) (name : String) : Int :=
  amountAt Push.target Push.volume pushes name

def outflow (pushes : List Push) (name : String) : Int :=
  amountAt Push.source Push.volume pushes name

end Push

def TraceEvent.push? : TraceEvent → Option Push
  | .pushed source target volume => some ⟨source, target, volume⟩
  | _ => none

namespace Traced

variable {α β : Type}

def pushes (traced : Traced α) : List Push :=
  traced.events.filterMap TraceEvent.push?

theorem pushes_pure (value : α) : (pure value : Traced α).pushes = [] :=
  rfl

theorem pushes_bind {first : Traced α} {value : α} (succeeded : first.outcome = .ok value)
    (next : α → Traced β) : (first >>= next).pushes = first.pushes ++ (next value).pushes := by
  simp only [pushes, bind_def, succeeded, List.filterMap_append]

theorem pushes_mapM {f : α → Traced β} {items : List α} {results : List β}
    (all : List.Forall₂ (fun item result => (f item).outcome = .ok result) items results) :
    (items.mapM f).pushes = items.flatMap fun item => (f item).pushes := by
  induction all with
  | nil => rfl
  | @cons item result items results first rest ih =>
      have restOk : (items.mapM f).outcome = .ok results := by
        rw [outcome_mapM, Outcome.mapM_ok_of_forall₂ rest]
      rw [List.mapM_cons, pushes_bind first, pushes_bind restOk, pushes_pure, List.append_nil, ih,
        List.flatMap_cons]

end Traced

end PartSorting
