import PartSorting.Condition
import PartSorting.Text.Quoted

/-!
What evaluations report on their way, as data.

`Traced α` is a computation that may fail and that keeps its events even then.  In a sequence the
events of the first part come first, and nothing follows a failure.  An event is reported with its
message written out, so a report fails when an integer of the event has too many digits;
`outcome_reportAll` says that a list of reports fails exactly if one of its events cannot be
written.
-/

set_option autoImplicit false

namespace PartSorting

inductive TraceEvent where
  /-- No part of the box satisfies the condition of a rule. -/
  | pruned (workflow : String) (condition : Condition) (target : String)
  | pushed (source target : String) (volume : Int)
  | classified (part : Part) (terminal : String) (path : List String)
  deriving DecidableEq

namespace TraceEvent

def message : TraceEvent → String
  | .pruned workflow condition target =>
    "PRUNE workflow=" ++ workflow ++ " condition=" ++ condition.text ++ " target=" ++ target
  | .pushed source target volume =>
    "PUSH from=" ++ source ++ " to=" ++ target ++ " volume=" ++ Numeral.write volume
  | .classified part terminal path =>
    "CLASSIFY record=" ++ Text.tuple (part.toList.map Numeral.write) ++ " terminal=" ++ terminal ++
      " path=" ++ String.intercalate ">" path

/-- Whether the integers in the message have few enough digits to be written. -/
def Writable : TraceEvent → Prop
  | .pruned _ condition _ => PartSorting.Writable condition.threshold
  | .pushed _ _ volume => PartSorting.Writable volume
  | .classified part _ _ => part.Spellable

instance : DecidablePred Writable
  | .pruned _ condition _ => inferInstanceAs (Decidable (PartSorting.Writable condition.threshold))
  | .pushed _ _ volume => inferInstanceAs (Decidable (PartSorting.Writable volume))
  | .classified part _ _ => inferInstanceAs (Decidable part.Spellable)

end TraceEvent

/-- The events of a computation, in order, and its outcome. -/
structure Traced (α : Type) where
  events : List TraceEvent
  outcome : Except Fault α

namespace Traced

variable {α β : Type}

def ofExcept (outcome : Except Fault α) : Traced α :=
  ⟨[], outcome⟩

def fail (fault : Fault) : Traced α :=
  ⟨[], .error fault⟩

def report (event : TraceEvent) : Traced Unit :=
  if event.Writable then ⟨[event], .ok ()⟩ else fail .integerTooLong

instance : Monad Traced where
  pure value := ⟨[], .ok value⟩
  bind first next :=
    match first.outcome with
    | .error fault => ⟨first.events, .error fault⟩
    | .ok value =>
      let rest := next value
      ⟨first.events ++ rest.events, rest.outcome⟩

theorem bind_def (first : Traced α) (next : α → Traced β) :
    first >>= next =
      match first.outcome with
      | .error fault => ⟨first.events, .error fault⟩
      | .ok value => ⟨first.events ++ (next value).events, (next value).outcome⟩ :=
  rfl

@[simp] theorem outcome_pure (value : α) : (pure value : Traced α).outcome = .ok value :=
  rfl

@[simp] theorem events_pure (value : α) : (pure value : Traced α).events = [] :=
  rfl

def reportAll (events : List TraceEvent) : Traced Unit :=
  events.forM report

/-- The outcome of a sequence does not depend on the events. -/
theorem outcome_bind (first : Traced α) (next : α → Traced β) :
    (first >>= next).outcome = first.outcome >>= fun value => (next value).outcome := by
  rw [bind_def]
  cases first.outcome <;> rfl

theorem map_id (first : Traced α) : id <$> first = first := by
  obtain ⟨events, fault | value⟩ := first
  · rfl
  · show Traced.mk (events ++ []) _ = _
    rw [List.append_nil]
    rfl

theorem pure_bind (value : α) (next : α → Traced β) : pure value >>= next = next value :=
  rfl

theorem bind_assoc {γ : Type} (first : Traced α) (next : α → Traced β) (last : β → Traced γ) :
    first >>= next >>= last = first >>= fun value => next value >>= last := by
  obtain ⟨events, fault | value⟩ := first
  · rfl
  · simp only [bind_def]
    cases (next value).outcome with
    | error fault => rfl
    | ok middle => simp only [List.append_assoc]

instance : LawfulMonad Traced :=
  LawfulMonad.mk' Traced map_id pure_bind bind_assoc

theorem reportAll_nil : reportAll [] = pure () :=
  rfl

theorem reportAll_cons (event : TraceEvent) (events : List TraceEvent) :
    reportAll (event :: events) = report event >>= fun _ => reportAll events :=
  rfl

theorem outcome_report (event : TraceEvent) :
    (report event).outcome = if event.Writable then .ok () else .error .integerTooLong := by
  unfold report
  split <;> rfl

theorem outcome_reportAll (events : List TraceEvent) :
    (reportAll events).outcome =
      if ∀ event ∈ events, event.Writable then .ok () else .error .integerTooLong := by
  induction events with
  | nil => simp [reportAll_nil]
  | cons event events ih =>
      rw [reportAll_cons, outcome_bind, ih, outcome_report]
      by_cases written : event.Writable
      · simp only [List.forall_mem_cons, written, true_and]
        rfl
      · simp only [List.forall_mem_cons, written, false_and]
        rfl

/-- Reports that all succeed leave their events in order. -/
theorem reportAll_of_writable {events : List TraceEvent}
    (written : ∀ event ∈ events, event.Writable) : reportAll events = ⟨events, .ok ()⟩ := by
  induction events with
  | nil => rfl
  | cons event events ih =>
      obtain ⟨first, rest⟩ := List.forall_mem_cons.mp written
      rw [reportAll_cons, ih rest, report, if_pos first]
      rfl

end Traced

end PartSorting
