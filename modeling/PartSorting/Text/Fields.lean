/-!
Texts cut at a separator.

A text with `n` separators has `n + 1` fields, some of them possibly empty; joining the fields
with the separator gives the text back.
-/

set_option autoImplicit false

namespace PartSorting.Text

/-- The pieces of a text between the occurrences of a separator. -/
def fields (separator : Char) : List Char → List (List Char)
  | [] => [[]]
  | c :: rest =>
    if c = separator then
      [] :: fields separator rest
    else
      match fields separator rest with
      | [] => [[c]]
      | field :: more => (c :: field) :: more

def join (separator : Char) : List (List Char) → List Char
  | [] => []
  | [field] => field
  | field :: more => field ++ separator :: join separator more

/-- The text before the first occurrence of a separator and the text after it. -/
def cutAt? (separator : Char) : List Char → Option (List Char × List Char)
  | [] => none
  | c :: rest =>
    if c = separator then
      some ([], rest)
    else
      (cutAt? separator rest).map fun (before, after) => (c :: before, after)

theorem fields_ne_nil (separator : Char) (text : List Char) : fields separator text ≠ [] := by
  cases text with
  | nil => simp [fields]
  | cons c rest =>
    by_cases cut : c = separator
    · simp [fields, cut]
    · simp only [fields, cut, if_false]
      split <;> simp

/-- Cutting a text loses nothing but the separators. -/
theorem join_fields (separator : Char) (text : List Char) :
    join separator (fields separator text) = text := by
  induction text with
  | nil => rfl
  | cons c rest ih =>
    by_cases cut : c = separator
    · subst cut
      cases rests : fields c rest with
      | nil => exact absurd rests (fields_ne_nil c rest)
      | cons field more =>
        rw [rests] at ih
        simp [fields, rests, join, ih]
    · cases rests : fields separator rest with
      | nil => exact absurd rests (fields_ne_nil separator rest)
      | cons field more =>
        rw [rests] at ih
        cases more with
        | nil =>
          simp only [join] at ih
          simp [fields, cut, rests, join, ih]
        | cons next others =>
          simp only [join] at ih
          simp [fields, cut, rests, join, ih]

end PartSorting.Text
