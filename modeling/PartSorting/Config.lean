import PartSorting.Fault
import PartSorting.Json
import PartSorting.Table
import PartSorting.Text.Blank

/-!
Configurations of an evaluation.

A configuration fixes the scale of the ratings, the name where evaluation enters the table, the
sink names that the table should have, and whether cycles are detected.  It may be given
unchecked; `Config.check` says what makes it valid.
-/

set_option autoImplicit false

namespace PartSorting

/-- The settings of an evaluation, with an identifier and a description of any form. -/
structure Config where
  scale : Interval
  entry : String
  accept : String
  reject : String
  detectCycles : Bool
  id : String
  description : Json

namespace Config

/-- The settings that hold where nothing else is said. -/
def usual : Config where
  scale := ⟨1, 4000⟩
  entry := "in"
  accept := Table.defaultAccept
  reject := Table.defaultReject
  detectCycles := true
  id := "default"
  description := .string ""

def defect? (config : Config) : Option ConfigDefect :=
  if config.scale.high < config.scale.low then
    some .emptyScale
  else if Text.trim config.entry.toList = [] then
    some .blankEntry
  else if config.accept = "" ∨ config.reject = "" then
    some .emptySink
  else if config.accept = config.reject then
    some .equalSinks
  else
    none

def check (config : Config) : Except Fault Unit :=
  match config.defect? with
  | some defect => .error (.config defect)
  | none => .ok ()

end Config

end PartSorting
