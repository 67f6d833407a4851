import PartSorting.Config.Loader
import PartSorting.Proofs.Config.Validity
import PartSorting.Proofs.Outcome
import PartSorting.Proofs.Text.Reading

/-! # What a loaded configuration holds

A configuration is loaded exactly if its file holds an object with the identifier by which the file
was asked for, every setting as a value of its type, and the settings are valid.  The description
alone is taken as it is, so it is a text exactly if the file has a text there, or nothing. -/

set_option autoImplicit false

namespace PartSorting

open Outcome (bind_eq_ok_iff)

namespace Json

theorem member?_concat_self (members : List (String × Json)) (key : String) (value : Json) :
    member? (members ++ [(key, value)]) key = some value := by
  rw [member?, List.reverse_concat, List.lookup_cons_self]

theorem member?_concat_of_ne {members : List (String × Json)} {key other : String} (value : Json)
    (different : key ≠ other) :
    member? (members ++ [(other, value)]) key = member? members key := by
  rw [member?, List.reverse_concat, List.lookup_cons, beq_eq_false_iff_ne.mpr different]
  rfl

end Json

namespace Directory

theorem read?_ofFiles (files : List (String × String)) {path : String}
    (plain : '/' ∉ path.toList) : (ofFiles files).read? path = files.lookup path := by
  simp [read?, Text.fields_of_not_mem plain, walk?, ofFiles]

end Directory

namespace Config

/-- The members of an object hold the settings, each as a value of its type, and a description. -/
structure HeldBy (config : Config) (members : List (String × Json)) : Prop where
  id : Json.member? members "config_id" = some (.string config.id)
  low : Json.member? members "universe_min" = some (.integer config.scale.low)
  high : Json.member? members "universe_max" = some (.integer config.scale.high)
  entry : Json.member? members "entry_name" = some (.string config.entry)
  accept : Json.member? members "accept_name" = some (.string config.accept)
  reject : Json.member? members "reject_name" = some (.string config.reject)
  detectCycles : Json.member? members "detect_cycles" = some (.bool config.detectCycles)
  description : (Json.member? members "description").getD (.string "") = config.description

variable {members : List (String × Json)} {key : String}

theorem field_eq_ok_iff {value : Json} :
    field members key = .ok value ↔ Json.member? members key = some value := by
  rw [field]
  cases Json.member? members key <;> simp

theorem field_bind_eq_ok_iff {α : Type} {read : Json → Except Fault α} {ofValue : α → Json}
    (reads : ∀ found value, read found = .ok value ↔ found = ofValue value) {value : α} :
    (field members key >>= read) = .ok value ↔
      Json.member? members key = some (ofValue value) := by
  rw [bind_eq_ok_iff]
  simp only [field_eq_ok_iff, reads, exists_eq_right]

theorem integerField_eq_ok_iff {value : Int} :
    integerField members key = .ok value ↔ Json.member? members key = some (.integer value) := by
  apply field_bind_eq_ok_iff
  rintro (_ | _ | _) <;> simp

theorem stringField_eq_ok_iff {value : String} :
    stringField members key = .ok value ↔ Json.member? members key = some (.string value) := by
  apply field_bind_eq_ok_iff
  rintro (_ | _ | _) <;> simp

theorem booleanField_eq_ok_iff {value : Bool} :
    booleanField members key = .ok value ↔ Json.member? members key = some (.bool value) := by
  apply field_bind_eq_ok_iff
  rintro (_ | _ | _) <;> simp

theorem ofMembers_eq_ok_iff {id : String} {config : Config} :
    ofMembers id members = .ok config ↔
      config.id = id ∧ config.HeldBy members ∧ config.Valid := by
  -- All fields are read before the settings are checked, so each of them has a value of its type.
  simp only [ofMembers, bind_eq_ok_iff, stringField_eq_ok_iff, integerField_eq_ok_iff,
    booleanField_eq_ok_iff, ite_eq_iff, reduceCtorEq, and_false, false_or, ne_eq, not_not]
  constructor
  · rintro ⟨_, heldId, rfl, _, heldLow, _, heldHigh, _, heldEntry, _, heldAccept, _, heldReject,
      _, heldDetect, _, checked, returned⟩
    obtain rfl := Except.ok.inj returned
    exact ⟨rfl, ⟨heldId, heldLow, heldHigh, heldEntry, heldAccept, heldReject, heldDetect, rfl⟩,
      check_eq_ok_iff.mp checked⟩
  · rintro ⟨rfl, held, valid⟩
    rw [held.description]
    exact ⟨_, held.id, rfl, _, held.low, _, held.high, _, held.entry, _, held.accept, _,
      held.reject, _, held.detectCycles, (), check_eq_ok_iff.mpr valid, rfl⟩

theorem load_eq_ok_iff {directory : Directory} {id : String} {config : Config} :
    load directory id = .ok config ↔
      ∃ text members, directory.read? (fileName id) = some text ∧
        Json.parse text = .ok (.object members) ∧ ofMembers id members = .ok config := by
  rw [load]
  cases found : directory.read? (fileName id) with
  | none => simp
  | some text =>
      simp only [bind_eq_ok_iff, Option.some.injEq]
      constructor
      · rintro ⟨document, parsed, read⟩
        cases document with
        | object members => exact ⟨text, members, rfl, parsed, read⟩
        | _ => contradiction
      · rintro ⟨_, members, rfl, parsed, read⟩
        exact ⟨.object members, parsed, read⟩

/-- A description is a text unless the members have something else for it. -/
theorem HeldBy.description_text_iff {config : Config} (held : config.HeldBy members) :
    (∃ text, config.description = .string text) ↔
      ∀ value, Json.member? members "description" = some value → ∃ text, value = .string text := by
  rw [← held.description]
  cases Json.member? members "description" with
  | none => simp
  | some value => simp

theorem HeldBy.describe {config : Config} (held : config.HeldBy members) (value : Json) :
    HeldBy { config with description := value } (members ++ [("description", value)]) where
  id := (Json.member?_concat_of_ne _ (by decide)).trans held.id
  low := (Json.member?_concat_of_ne _ (by decide)).trans held.low
  high := (Json.member?_concat_of_ne _ (by decide)).trans held.high
  entry := (Json.member?_concat_of_ne _ (by decide)).trans held.entry
  accept := (Json.member?_concat_of_ne _ (by decide)).trans held.accept
  reject := (Json.member?_concat_of_ne _ (by decide)).trans held.reject
  detectCycles := (Json.member?_concat_of_ne _ (by decide)).trans held.detectCycles
  description := by rw [Json.member?_concat_self, Option.getD_some]

/-- Any value whatever is accepted as the description. -/
theorem ofMembers_describe {id : String} {config : Config}
    (read : ofMembers id members = .ok config) (value : Json) :
    ofMembers id (members ++ [("description", value)]) =
      .ok { config with description := value } := by
  obtain ⟨same, held, valid⟩ := ofMembers_eq_ok_iff.mp read
  exact ofMembers_eq_ok_iff.mpr ⟨same, held.describe value, valid.describe value⟩

/-- A configuration that is loaded has the identifier asked for, and is valid, and its file holds
all its settings as values of their types.  The description of the file is not judged: any other
would have been accepted too, so that it is a text exactly if the file has a text or nothing. -/
theorem load_typed {directory : Directory} {id : String} {config : Config}
    (loaded : load directory id = .ok config) :
    config.id = id ∧ config.Valid ∧ config.check = .ok () ∧
    ∃ text members, directory.read? (fileName id) = some text ∧
      Json.parse text = .ok (.object members) ∧ config.HeldBy members ∧
      ((∃ said, config.description = .string said) ↔
        ∀ value, Json.member? members "description" = some value →
          ∃ said, value = .string said) ∧
      ∀ value, ofMembers id (members ++ [("description", value)]) =
        .ok { config with description := value } := by
  obtain ⟨text, members, found, parsed, read⟩ := load_eq_ok_iff.mp loaded
  obtain ⟨same, held, valid⟩ := ofMembers_eq_ok_iff.mp read
  exact ⟨same, valid, check_eq_ok_iff.mpr valid, text, members, found, parsed, held,
    held.description_text_iff, ofMembers_describe read⟩

theorem load_file {config : Config} (valid : config.Valid)
    (plain : '/' ∉ (fileName config.id).toList)
    (parsed : Json.parse config.json.text = .ok config.json) :
    load (.ofFiles [config.file]) config.id = .ok config := by
  have found : (Directory.ofFiles [config.file]).read? (fileName config.id) =
      some config.json.text := by
    rw [Directory.read?_ofFiles _ plain, file, List.lookup_cons_self]
  exact load_eq_ok_iff.mpr ⟨_, _, found, parsed,
    ofMembers_eq_ok_iff.mpr ⟨rfl, ⟨rfl, rfl, rfl, rfl, rfl, rfl, rfl, rfl⟩, valid⟩⟩

theorem valid_usual : usual.Valid :=
  ⟨by decide, ⟨'i', by decide, by decide⟩, by decide, by decide, by decide⟩

set_option maxRecDepth 8000 in
theorem parse_usual : Json.parse usual.json.text = .ok usual.json := by
  rfl

theorem load_typed_usual :
    load (.ofFiles [usual.file]) "default" = .ok usual ∧
    usual.check = .ok () ∧ ∃ said, usual.description = .string said := by
  have loaded : load (.ofFiles [usual.file]) "default" = .ok usual :=
    load_file valid_usual (by decide) parse_usual
  obtain ⟨_, _, checked, _⟩ := load_typed loaded
  exact ⟨loaded, checked, _, rfl⟩

def numbered : Config :=
  { usual with description := .integer 7 }

set_option maxRecDepth 8000 in
theorem parse_numbered : Json.parse numbered.json.text = .ok numbered.json := by
  rfl

/-- A number is no text, and yet is loaded as a description. -/
theorem load_numbered :
    load (.ofFiles [numbered.file]) "default" = .ok numbered ∧
    ¬∃ said, numbered.description = .string said :=
  ⟨load_file (valid_usual.describe _) (by decide) parse_numbered, nofun⟩

end Config

end PartSorting
