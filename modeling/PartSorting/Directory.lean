import PartSorting.Text.Fields

/-!
Directories of text files, and the relative paths that lead to their files.

A path is cut at its slashes.  All steps but the last lead from folder to folder, beginning at the
directory itself; the last one is the name of a file.  A step to a folder that is not there leads
nowhere, also if a later step would turn back.  Of the tree around a directory only the places of
its folders are known, so that a path may leave the directory and come back to it.
-/

set_option autoImplicit false

namespace PartSorting

/-- A directory with the names and texts of its files.  A place is the list of the folders on the
way to it from the outermost folder that is known. -/
structure Directory where
  place : List String
  otherPlaces : List (List String)
  files : List (String × String)

namespace Directory

def ofFiles (files : List (String × String)) : Directory :=
  ⟨[], [], files⟩

/-- There is a folder at a place: the directory, a folder around it, or one of the others. -/
def HasFolder (directory : Directory) (place : List String) : Prop :=
  place <+: directory.place ∨ place ∈ directory.otherPlaces

instance (directory : Directory) (place : List String) : Decidable (directory.HasFolder place) :=
  inferInstanceAs (Decidable (_ ∨ _))

/-- The place to which a step leads: an empty one and a single dot stay, two dots lead to the
folder around, and a name leads to the folder of that name. -/
def step? (directory : Directory) (place : List String) (step : List Char) :
    Option (List String) :=
  if step = [] ∨ step = ['.'] then
    some place
  else if step = ['.', '.'] then
    if place = [] then none else some place.dropLast
  else
    let inner := place ++ [String.ofList step]
    if directory.HasFolder inner then some inner else none

def walk? (directory : Directory) (place : List String) : List (List Char) → Option (List String)
  | [] => some place
  | step :: steps => (directory.step? place step).bind fun next => directory.walk? next steps

/-- The text of the file to which a path leads, if it is a file of the directory.  An absolute path
leads to none. -/
def read? (directory : Directory) (path : String) : Option String :=
  let steps := Text.fields '/' path.toList
  if steps.length ≠ 1 ∧ steps.head? = some [] then
    none
  else
    match directory.walk? directory.place steps.dropLast, steps.getLast? with
    | some place, some name =>
      if place = directory.place then directory.files.lookup (String.ofList name) else none
    | _, _ => none

end Directory

end PartSorting
