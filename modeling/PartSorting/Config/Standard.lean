import PartSorting.Config
import PartSorting.Json.Printer

/-!
Configurations written as files, and the two that are always at hand.

The file of a configuration is named for its identifier and holds one object with all settings.
-/

set_option autoImplicit false

namespace PartSorting.Config

def json (config : Config) : Json :=
  .object [
    ("config_id", .string config.id),
    ("description", config.description),
    ("universe_min", .integer config.scale.low),
    ("universe_max", .integer config.scale.high),
    ("entry_name", .string config.entry),
    ("accept_name", .string config.accept),
    ("reject_name", .string config.reject),
    ("detect_cycles", .bool config.detectCycles)]

def fileName (id : String) : String :=
  id ++ ".json"

def file (config : Config) : String × String :=
  (fileName config.id, config.json.text)

/-- The settings for parts of the usual scale. -/
def standard : Config :=
  { usual with
    description := .string
      "Standard part ratings: x, m, a, s each in 1..4000, entry 'in', sinks 'A'/'R'." }

/-- The settings for a scale that is small enough to try every part. -/
def smallScale : Config :=
  { usual with
    scale := ⟨1, 10⟩
    id := "small_universe"
    description := .string
      "Reduced 1..10 universe for brute-force cross-checks of range counting." }

/-- The files of the settings that are always at hand. -/
def standardFiles : List (String × String) :=
  [standard.file, smallScale.file]

end PartSorting.Config
