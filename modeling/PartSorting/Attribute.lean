/-!
The four rated attributes of a part, and values kept one per attribute.

A family `PerAttribute α` holds exactly one value for each attribute, so reading it never
fails.  `get_set` says what an update does to every reading, and `ext_get` that a family is
determined by its readings.
-/

set_option autoImplicit false

namespace PartSorting

/-- An attribute in which parts are rated. -/
inductive Attribute where
  | x
  | m
  | a
  | s
  deriving DecidableEq

namespace Attribute

def all : List Attribute := [.x, .m, .a, .s]

def letter : Attribute → Char
  | .x => 'x'
  | .m => 'm'
  | .a => 'a'
  | .s => 's'

/-- The attribute that a text names; only a single known letter names one. -/
def ofText? : List Char → Option Attribute
  | ['x'] => some .x
  | ['m'] => some .m
  | ['a'] => some .a
  | ['s'] => some .s
  | _ => none

theorem mem_all (i : Attribute) : i ∈ all := by
  cases i <;> simp [all]

theorem ofText?_letter (i : Attribute) : ofText? [i.letter] = some i := by
  cases i <;> rfl

end Attribute

/-- One value for each attribute. -/
structure PerAttribute (α : Type) where
  x : α
  m : α
  a : α
  s : α
  deriving DecidableEq

namespace PerAttribute

variable {α β γ : Type}

def get (family : PerAttribute α) : Attribute → α
  | .x => family.x
  | .m => family.m
  | .a => family.a
  | .s => family.s

/-- The family whose value at each attribute is given by a function. -/
def ofFn (value : Attribute → α) : PerAttribute α :=
  ⟨value .x, value .m, value .a, value .s⟩

/-- The family with the value of one attribute exchanged. -/
def set (family : PerAttribute α) (i : Attribute) (value : α) : PerAttribute α :=
  match i with
  | .x => { family with x := value }
  | .m => { family with m := value }
  | .a => { family with a := value }
  | .s => { family with s := value }

def const (value : α) : PerAttribute α :=
  ⟨value, value, value, value⟩

/-- Two families joined attribute by attribute. -/
def zipWith (join : α → β → γ) (left : PerAttribute α) (right : PerAttribute β) :
    PerAttribute γ :=
  ⟨join left.x right.x, join left.m right.m, join left.a right.a, join left.s right.s⟩

def toList (family : PerAttribute α) : List α :=
  [family.x, family.m, family.a, family.s]

@[simp] theorem get_ofFn (value : Attribute → α) (i : Attribute) :
    (ofFn value).get i = value i := by
  cases i <;> rfl

@[simp] theorem get_const (value : α) (i : Attribute) : (const value).get i = value := by
  cases i <;> rfl

@[simp] theorem get_zipWith (join : α → β → γ) (left : PerAttribute α)
    (right : PerAttribute β) (i : Attribute) :
    (zipWith join left right).get i = join (left.get i) (right.get i) := by
  cases i <;> rfl

theorem get_set (family : PerAttribute α) (i j : Attribute) (value : α) :
    (family.set i value).get j = if j = i then value else family.get j := by
  cases i <;> cases j <;> rfl

theorem ext_get {left right : PerAttribute α} (same : ∀ i, left.get i = right.get i) :
    left = right := by
  cases left
  cases right
  have hx := same .x
  have hm := same .m
  have ha := same .a
  have hs := same .s
  simp only [get] at hx hm ha hs
  subst hx hm ha hs
  rfl

end PerAttribute

end PartSorting
