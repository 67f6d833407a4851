import PartSorting.Listing
import PartSorting.Table.Ranges
import PartSorting.Table.Walk

/-!
Sessions: a table joined with a configuration that fits it.

A session exists only for valid settings whose sink names are those of the table.  Its operations
are the evaluations of the table with these settings.
-/

set_option autoImplicit false

namespace PartSorting

/-- A table, valid settings with the same sink names, and the parts listed with the table. -/
structure Session where
  table : Table
  config : Config
  parts : List Part
  valid : config.defect? = none
  accept_eq : table.accept = config.accept
  reject_eq : table.reject = config.reject

namespace Session

/-- A session with a table; the settings are checked before the sink names are compared. -/
def start (table : Table) (config : Config) (parts : List Part) : Except Fault Session :=
  match valid : config.defect? with
  | some defect => .error (.config defect)
  | none =>
    if same : table.accept = config.accept ∧ table.reject = config.reject then
      .ok ⟨table, config, parts, valid, same.1, same.2⟩
    else
      .error (.config (.foreignSinks table.accept table.reject config.accept config.reject))

def ofLines (lines : List String) (config : Config) : Except Fault Session := do
  let listing ← Listing.parse lines config.accept config.reject
  start listing.table config listing.parts

def judge (session : Session) (part : Part) : Traced Verdict :=
  session.table.judge session.config part

def judgeAll (session : Session) (parts : List Part) : Traced (List Verdict) :=
  session.table.judgeAll session.config parts

def sumAccepted (session : Session) (parts : List Part) : Traced Int :=
  session.table.sumAccepted session.config parts

def evaluate (session : Session) (box : Option Box) : Traced RangeReport :=
  session.table.evaluate session.config box

def count (session : Session) (box : Option Box) : Traced Int :=
  session.table.count session.config box

end Session

end PartSorting
