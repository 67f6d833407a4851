import PartSorting.Fault
import PartSorting.Json.Token

/-!
JSON values read from texts.

The tokens are taken one by one with a stack of the arrays and objects that are still open, so
the first token that does not fit decides the fault.
-/

set_option autoImplicit false

namespace PartSorting.Json

/-- An open array or object, its contents in reverse order; an open object waits for the value of
a key. -/
inductive Frame where
  | array (items : List Json)
  | object (members : List (String × Json)) (key : String)

/-- What may come next. -/
inductive Phase where
  | value
  /-- A value, or the end of an array that has just been opened. -/
  | firstItem
  /-- A key, or the end of an object that has just been opened. -/
  | firstKey (members : List (String × Json))
  | key (members : List (String × Json))
  | colon (members : List (String × Json)) (key : String)
  /-- A comma or the end of what is open. -/
  | separator
  | finished (value : Json)

/-- What may come next, and what is open. -/
structure Progress where
  phase : Phase
  frames : List Frame

namespace Progress

/-- A value is complete and takes its place in what is open. -/
def complete (value : Json) : List Frame → Progress
  | [] => ⟨.finished value, []⟩
  | .array items :: frames => ⟨.separator, .array (value :: items) :: frames⟩
  | .object members key :: frames => ⟨.separator, .object ((key, value) :: members) key :: frames⟩

/-- A value begins, and ends at once unless it is an array or an object. -/
def begin? (frames : List Frame) : Token → Except Fault Progress
  | .openArray => .ok ⟨.firstItem, .array [] :: frames⟩
  | .openObject => .ok ⟨.firstKey [], frames⟩
  | .string value => .ok (complete (.string value) frames)
  | .scalar value => .ok (complete value frames)
  | .tooLong digits => .error (.numeralTooLong digits)
  | _ => .error .invalidJson

def take (progress : Progress) (token : Token) : Except Fault Progress :=
  match progress.phase, token with
  | .value, token => begin? progress.frames token
  | .firstItem, .closeArray =>
    match progress.frames with
    | .array items :: frames => .ok (complete (.array items.reverse) frames)
    | _ => .error .invalidJson
  | .firstItem, token => begin? progress.frames token
  | .firstKey members, .closeObject =>
    .ok (complete (.object members.reverse) progress.frames)
  | .firstKey members, .string key => .ok ⟨.colon members key, progress.frames⟩
  | .key members, .string key => .ok ⟨.colon members key, progress.frames⟩
  | .colon members key, .colon => .ok ⟨.value, .object members key :: progress.frames⟩
  | .separator, .comma =>
    match progress.frames with
    | .array _ :: _ => .ok ⟨.value, progress.frames⟩
    | .object members _ :: frames => .ok ⟨.key members, frames⟩
    | [] => .error .invalidJson
  | .separator, .closeArray =>
    match progress.frames with
    | .array items :: frames => .ok (complete (.array items.reverse) frames)
    | _ => .error .invalidJson
  | .separator, .closeObject =>
    match progress.frames with
    | .object members _ :: frames => .ok (complete (.object members.reverse) frames)
    | _ => .error .invalidJson
  | _, _ => .error .invalidJson

end Progress

def parse (text : String) : Except Fault Json := do
  let progress ← (Token.scan text.toList).foldlM Progress.take ⟨.value, []⟩
  match progress.phase with
  | .finished value => .ok value
  | _ => .error .invalidJson

end PartSorting.Json
