import PartSorting.Config
import PartSorting.Proofs.Text.Grammar

/-! # Valid settings

The check of a configuration names the first of its defects.  It passes exactly if there is a
scale, the entry has a name that shows, and the sinks have names that can be told apart. -/

set_option autoImplicit false

namespace PartSorting.Config

structure Valid (config : Config) : Prop where
  scale_proper : config.scale.Proper
  entry_shows : ∃ c ∈ config.entry.toList, Text.isBlank c = false
  accept_ne_empty : config.accept ≠ ""
  reject_ne_empty : config.reject ≠ ""
  sinks_distinct : config.accept ≠ config.reject

variable {config : Config}

theorem entry_shows_iff :
    (∃ c ∈ config.entry.toList, Text.isBlank c = false) ↔ Text.trim config.entry.toList ≠ [] := by
  rw [Ne, Text.trim_eq_nil_iff]
  simp only [not_forall, Bool.not_eq_true, exists_prop]

theorem defect?_eq_none_iff : config.defect? = none ↔ config.Valid := by
  simp only [defect?, ite_eq_iff, reduceCtorEq, and_false, false_or, and_true, Int.not_lt, not_or]
  constructor
  · rintro ⟨scale, entry, ⟨accept, reject⟩, distinct⟩
    exact ⟨scale, entry_shows_iff.mpr entry, accept, reject, distinct⟩
  · rintro ⟨scale, entry, accept, reject, distinct⟩
    exact ⟨scale, entry_shows_iff.mp entry, ⟨accept, reject⟩, distinct⟩

theorem check_eq_ok_iff : config.check = .ok () ↔ config.Valid := by
  rw [← defect?_eq_none_iff, check]
  cases config.defect? <;> simp

theorem Valid.describe (valid : config.Valid) (description : Json) :
    Valid { config with description } :=
  ⟨valid.scale_proper, valid.entry_shows, valid.accept_ne_empty, valid.reject_ne_empty,
    valid.sinks_distinct⟩

end PartSorting.Config
