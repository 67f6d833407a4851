import PartSorting.Proofs.Workflow.Grammar
import PartSorting.Workflow.Printer

/-! # Workflows are read back from their texts

A workflow can be spelt when its names are words and its thresholds can be written.  The text of
such a workflow spells it, so it is what the text is read as. -/

set_option autoImplicit false

namespace PartSorting

structure Workflow.Spellable (workflow : Workflow) : Prop where
  name : Text.Word workflow.name.toList
  targets : ∀ target ∈ workflow.targets, Text.Word target.toList
  thresholds : ∀ rule ∈ workflow.rules, Writable rule.condition.threshold

theorem Rule.speltBy_chars {rule : Rule} (word : Text.Word rule.target.toList)
    (written : Writable rule.condition.threshold) : rule.SpeltBy rule.chars :=
  ⟨rule.condition.chars, rfl, Condition.speltBy_chars written, word.isName⟩

namespace Workflow.Spellable

variable {workflow : Workflow}

theorem fallback (spellable : workflow.Spellable) : Text.Word workflow.fallback.toList :=
  spellable.targets _ (List.mem_append_right _ List.mem_cons_self)

theorem target (spellable : workflow.Spellable) {rule : Rule} (member : rule ∈ workflow.rules) :
    Text.Word rule.target.toList :=
  spellable.targets _ (List.mem_append_left _ (List.mem_map_of_mem member))

theorem speltBy_chars (spellable : workflow.Spellable) : workflow.SpeltBy workflow.chars := by
  refine ⟨workflow.rules.map Rule.chars, rfl, spellable.name.isName, ?_,
    spellable.fallback.isName⟩
  rw [List.forall₂_map_right_iff, List.forall₂_same]
  intro rule member
  exact Rule.speltBy_chars (spellable.target member) (spellable.thresholds rule member)

theorem trimmed_chars (spellable : workflow.Spellable) {line : List Char}
    (padded : Text.Padded workflow.chars line) : Text.Trimmed workflow.chars line := by
  refine ⟨padded, ?_, ?_⟩
  · intro c first
    obtain ⟨d, rest, spelt⟩ := List.exists_cons_of_ne_nil spellable.name.1
    rw [chars, spelt] at first
    obtain rfl := Option.some.inj first
    exact (spellable.name.inner _ (spelt ▸ List.mem_cons_self)).2.2.2.2
  · intro c last
    rw [chars, List.getLast?_concat] at last
    obtain rfl := Option.some.inj last
    rfl

theorem parse_padded (spellable : workflow.Spellable) {text : String}
    (padded : Text.Padded workflow.chars text.toList) :
    Workflow.parse text = .ok workflow :=
  parse_eq_ok_iff.mpr ⟨workflow.chars, spellable.trimmed_chars padded, spellable.speltBy_chars⟩

end Workflow.Spellable

end PartSorting
