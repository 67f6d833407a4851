import PartSorting.Table

/-!
The order of the workflows that can be reached from an entry, each before its successors.

The search goes from name to name along a path.  A workflow is put in front of the order when all
its successors stand in it; a successor that lies on the path closes a cycle.
-/

set_option autoImplicit false

namespace PartSorting.Table

/-- Put a name and all that can be reached from it in front of an order that is closed under
successors. -/
def orderFrom (table : Table) :
    Nat → List String → String → List String → Except Fault (List String)
  | 0, path, name, _ => .error (.endless (path ++ [name]))
  | depth + 1, path, name, order => do
    let successors ← table.successors name
    let order ← successors.foldlM (fun order target =>
      if table.isSink target ∨ target ∈ order then
        .ok order
      else if target ∈ path ++ [name] then
        .error (.cyclicWorkflow ((path ++ [name]).dropWhile (· ≠ target) ++ [target]))
      else
        orderFrom table depth (path ++ [name]) target order) order
    return name :: order

/-- The workflows that can be reached from the entry, each before its successors. -/
def order (table : Table) (entry : String) : Except Fault (List String) :=
  if table.isSink entry then .ok [] else table.orderFrom table.depth [] entry []

end PartSorting.Table
