import PartSorting.Part.Parser
import PartSorting.Table
import PartSorting.Workflow.Parser

/-!
Listings: the workflows of a table, a blank line, and the records of parts.

Blank lines before the first workflow and between or after the records do not count; the first
blank line after a workflow ends the workflows.
-/

set_option autoImplicit false

namespace PartSorting

structure Listing where
  table : Table
  parts : List Part

namespace Listing

/-- What has been read of a listing, and whether its workflows have ended. -/
structure Progress where
  workflows : List Workflow
  parts : List Part
  inParts : Bool

def readLine (progress : Progress) (line : String) : Except Fault Progress :=
  let text := Text.trim line.toList
  if text = [] then
    .ok { progress with inParts := progress.inParts || !progress.workflows.isEmpty }
  else if progress.inParts then do
    let part ← Part.parse (String.ofList text)
    return { progress with parts := progress.parts ++ [part] }
  else do
    let workflow ← Workflow.parse (String.ofList text)
    return { progress with workflows := progress.workflows ++ [workflow] }

/-- The listing that lines spell; the table is made when all lines have been read. -/
def parse (lines : List String) (accept reject : String) : Except Fault Listing := do
  let progress ← lines.foldlM readLine ⟨[], [], false⟩
  let table ← Table.ofWorkflows progress.workflows accept reject
  return ⟨table, progress.parts⟩

end Listing

end PartSorting
