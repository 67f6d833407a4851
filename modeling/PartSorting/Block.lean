import PartSorting.Fault
import PartSorting.Part

/-!
Blocks of 64-bit words, in which many parts are laid out row by row.

Only integers that fit into words can stand in a block, and only a block with two dimensions and
four columns holds parts.  `parts_ofParts` says that parts laid out in a block are found again.
-/

set_option autoImplicit false

namespace PartSorting

/-- The number of values of a 64-bit word. -/
def wordValues : Nat := 18446744073709551616

def FitsWord (n : Int) : Prop :=
  -9223372036854775808 ≤ n ∧ n ≤ 9223372036854775807

instance (n : Int) : Decidable (FitsWord n) :=
  inferInstanceAs (Decidable (_ ∧ _))

/-- An integer that fits into a word is left as it is when it is reduced to one. -/
theorem bmod_wordValues_of_fitsWord {n : Int} (fits : FitsWord n) : n.bmod wordValues = n :=
  Int.bmod_eq_of_le (by simp only [FitsWord, wordValues] at *; omega)
    (by simp only [FitsWord, wordValues] at *; omega)

theorem writable_of_fitsWord {n : Int} (fits : FitsWord n) : Writable n := by
  have least : Writable (-9223372036854775808) := by decide +kernel
  have greatest : Writable 9223372036854775807 := by decide +kernel
  exact least.of_between greatest fits.1 fits.2

theorem Part.spellable_of_fitsWord {part : Part} (fits : ∀ n ∈ part.toList, FitsWord n) :
    part.Spellable := by
  intro i
  apply writable_of_fitsWord
  apply fits
  cases i <;> simp [PerAttribute.get, PerAttribute.toList]

structure Block where
  shape : List Nat
  data : List Int

namespace Block

/-- The rows of four of a list of integers; what is left over at the end is dropped. -/
def partsOf : List Int → List Part
  | x :: m :: a :: s :: rest => ⟨x, m, a, s⟩ :: partsOf rest
  | _ => []

/-- A block can be made only of integers that fit into words. -/
def check (block : Block) : Except Fault Unit :=
  if ∀ n ∈ block.data, FitsWord n then .ok () else .error .wordOverflow

def parts (block : Block) : Except Fault (List Part) :=
  match block.shape with
  | [_, 4] => .ok (partsOf block.data)
  | shape => .error (.blockShape shape)

def ofParts (parts : List Part) : Block :=
  ⟨[parts.length, 4], parts.flatMap PerAttribute.toList⟩

theorem partsOf_toList (parts : List Part) :
    partsOf (parts.flatMap PerAttribute.toList) = parts := by
  induction parts with
  | nil => rfl
  | cons part parts ih =>
    simp only [List.flatMap_cons, PerAttribute.toList, List.cons_append, List.nil_append, partsOf]
    exact congrArg (part :: ·) ih

theorem parts_ofParts (parts : List Part) : (ofParts parts).parts = .ok parts :=
  congrArg Except.ok (partsOf_toList parts)

end Block

end PartSorting
