import PartSorting.Part.Printer
import PartSorting.Proofs.Part.Grammar

/-! # Parts are read back from their records

The record of a part has one field for each attribute, in their order, so it spells the part when
the ratings can be written. -/

set_option autoImplicit false

namespace PartSorting.Part

theorem gives_field {part : Part} {i : Attribute} (written : Writable (part.get i)) :
    Gives (i, part.get i) (field part i) :=
  ⟨_, rfl, Text.denotes_ofInt written⟩

theorem speltBy_chars {part : Part} (spellable : part.Spellable) : part.SpeltBy part.chars := by
  refine ⟨_, rfl, Attribute.all, .refl _, ?_⟩
  rw [List.forall₂_map_right_iff, List.forall₂_same]
  exact fun i _ => gives_field (spellable i)

theorem trimmed_chars {part : Part} {line : List Char} (padded : Text.Padded part.chars line) :
    Text.Trimmed part.chars line := by
  refine ⟨padded, ?_, ?_⟩
  · intro c first
    obtain rfl := Option.some.inj first
    rfl
  · intro c last
    rw [chars, List.getLast?_concat] at last
    obtain rfl := Option.some.inj last
    rfl

theorem parse_padded {part : Part} (spellable : part.Spellable) {text : String}
    (padded : Text.Padded part.chars text.toList) : Part.parse text = .ok part :=
  parse_eq_ok_iff.mpr ⟨part.chars, trimmed_chars padded, speltBy_chars spellable⟩

end PartSorting.Part
