import PartSorting.Attribute
import PartSorting.Text.Numeral

/-!
Parts: one integer rating for each attribute.
-/

set_option autoImplicit false

namespace PartSorting

abbrev Part := PerAttribute Int

namespace Part

def rating (part : Part) : Int :=
  part.x + part.m + part.a + part.s

/-- The ratings have few enough digits to be written. -/
def Spellable (part : Part) : Prop :=
  ∀ i, Writable (part.get i)

instance (part : Part) : Decidable part.Spellable :=
  decidable_of_iff (∀ i ∈ Attribute.all, Writable (part.get i))
    ⟨fun listed i => listed i (Attribute.mem_all i), fun all i _ => all i⟩

end Part

end PartSorting
