import PartSorting.Proofs.Table.Sweep
import PartSorting.Proofs.Trace.Agreement

/-! # Two sweeps of one table in lock step

When two ways of dividing loads give related pieces for the same names in the same order, then
sweeps of related loads visit the same names along the same paths.  Either both finish, with
related loads delivered at the same sinks one by one, or both stop at the same fault. -/

set_option autoImplicit false

namespace PartSorting

variable {Left Right : Type}

def Paired (related : String → Left → Right → Prop) (first : String × Left)
    (second : String × Right) : Prop :=
  first.1 = second.1 ∧ related first.1 first.2 second.2

structure SameArrivals (related : String → Left → Right → Prop) (first : Arrivals Left)
    (second : Arrivals Right) : Prop where
  deliveries : List.Forall₂ (Paired related) first.deliveries second.deliveries
  visits : first.visits = second.visits

namespace SameArrivals

variable {related : String → Left → Right → Prop}

theorem append {first later : Arrivals Left} {second laterToo : Arrivals Right}
    (same : SameArrivals related first second) (sameToo : SameArrivals related later laterToo) :
    SameArrivals related (first.append later) (second.append laterToo) :=
  ⟨List.rel_append same.deliveries sameToo.deliveries, by
    simp only [Arrivals.append, same.visits, sameToo.visits]⟩

theorem afterVisit {results : List (Arrivals Left)} {others : List (Arrivals Right)}
    (all : List.Forall₂ (SameArrivals related) results others) :
    SameArrivals related (.afterVisit results) (.afterVisit others) := by
  induction all with
  | nil => exact ⟨.nil, rfl⟩
  | cons first _ ih => exact first.append ih

end SameArrivals

namespace Table

/-- Loads before one name that are related on some path that leads there. -/
def RelatedOnPath (related : List String → String → Left → Right → Prop) (name : String)
    (load : Left) (other : Right) : Prop :=
  ∃ path, related path name load other

/-- Wherever related loads come to a workflow, their divisions agree: the pieces go to the same
names in the same order and are related again.  What counts as related may depend on where the
loads stand, the path and the name. -/
def InStep (table : Table) (detectCycles : Bool)
    (related : List String → String → Left → Right → Prop) (divide : Divider Left)
    (divideToo : Divider Right) : Prop :=
  ∀ path name workflow first second, related path name first second →
    table.arrive detectCycles path name = .ok (some workflow) →
      Agree (List.Forall₂ (Paired (related (path ++ [name]))))
        (divide name workflow first).outcome (divideToo name workflow second).outcome

variable {table : Table} {detectCycles : Bool} {divide : Divider Left}
  {divideToo : Divider Right} {related : List String → String → Left → Right → Prop}

/-- Sweeps of related loads with dividers in step end alike. -/
theorem agree_sweepFrom (inStep : InStep table detectCycles related divide divideToo)
    (depth : Nat) (path : List String) (name : String) (first : Left) (second : Right)
    (isRelated : related path name first second) :
    Agree (SameArrivals (RelatedOnPath related))
      (table.sweepFrom detectCycles divide depth path (name, first)).outcome
      (table.sweepFrom detectCycles divideToo depth path (name, second)).outcome := by
  induction depth generalizing path name first second with
  | zero => exact .error _
  | succ depth ih =>
      simp only [sweepFrom]
      cases arrived : table.arrive detectCycles path name with
      | error fault => exact .error fault
      | ok next =>
          cases next with
          | none => exact .ok ⟨.cons ⟨rfl, path, isRelated⟩ .nil, rfl⟩
          | some workflow =>
              simp only [Traced.outcome_bind, Traced.outcome_mapM]
              refine (inStep path name workflow first second isRelated arrived).bind ?_
              intro pieces others paired
              have each : ∀ piece other, Paired (related (path ++ [name])) piece other →
                  Agree (SameArrivals (RelatedOnPath related))
                    (table.sweepFrom detectCycles divide depth (path ++ [name]) piece).outcome
                    (table.sweepFrom detectCycles divideToo depth (path ++ [name])
                      other).outcome := by
                rintro ⟨target, piece⟩ ⟨targetToo, other⟩ ⟨same, piecesRelated⟩
                obtain rfl : target = targetToo := same
                exact ih (path ++ [name]) target piece other piecesRelated
              have followed := Agree.mapM (List.forall₂_reverse_iff.mpr paired) each
              exact followed.bind fun results othersResults all => .ok (.afterVisit all)

end Table

end PartSorting
