import PartSorting.Config.Standard
import PartSorting.Directory
import PartSorting.Json.Parser

/-!
Configurations loaded by their identifier from JSON files.

The file of a configuration has its identifier as name.  An identifier with slashes is a path; the
file that it leads to is refused unless it holds that very identifier.  The fields are judged in a
fixed order, each by its presence and its type; then the settings are checked as a whole.
-/

set_option autoImplicit false

namespace PartSorting

namespace Config

/-- The value of a required field. -/
def field (members : List (String × Json)) (key : String) : Except Fault Json :=
  match Json.member? members key with
  | some value => .ok value
  | none => .error (.config (.missingField key))

def integerField (members : List (String × Json)) (key : String) : Except Fault Int := do
  match ← field members key with
  | .integer value => .ok value
  | _ => .error (.config (.wrongType key .integer))

def stringField (members : List (String × Json)) (key : String) : Except Fault String := do
  match ← field members key with
  | .string value => .ok value
  | _ => .error (.config (.wrongType key .string))

def booleanField (members : List (String × Json)) (key : String) : Except Fault Bool := do
  match ← field members key with
  | .bool value => .ok value
  | _ => .error (.config (.wrongType key .boolean))

def ofMembers (id : String) (members : List (String × Json)) : Except Fault Config := do
  let found ← stringField members "config_id"
  if found ≠ id then
    .error (.config (.otherId id found))
  else do
    let low ← integerField members "universe_min"
    let high ← integerField members "universe_max"
    let entry ← stringField members "entry_name"
    let accept ← stringField members "accept_name"
    let reject ← stringField members "reject_name"
    let detectCycles ← booleanField members "detect_cycles"
    let description := (Json.member? members "description").getD (.string "")
    let config : Config := ⟨⟨low, high⟩, entry, accept, reject, detectCycles, found, description⟩
    config.check
    return config

def load (directory : Directory) (id : String) : Except Fault Config :=
  match directory.read? (fileName id) with
  | none => .error (.config (.unknownId id))
  | some text => do
    match ← Json.parse text with
    | .object members => ofMembers id members
    | _ => .error (.config .notAnObject)

end Config

end PartSorting
