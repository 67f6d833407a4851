/-!
Lists of names and their repetitions.

`firstRepeat?` finds the first name that stands in the list a second time, and fails exactly if
all names are distinct; `distinct` keeps the first occurrence of every name, in order.
-/

set_option autoImplicit false

namespace PartSorting.Names

/-- The first name that is among the names seen or stands earlier in the list. -/
def firstRepeat? (seen : List String) : List String → Option String
  | [] => none
  | name :: names => if name ∈ seen then some name else firstRepeat? (name :: seen) names

/-- The names that are not among the names seen, each at its first place. -/
def distinct (seen : List String) : List String → List String
  | [] => []
  | name :: names =>
    if name ∈ seen then distinct seen names else name :: distinct (name :: seen) names

theorem firstRepeat?_eq_none_iff {seen names : List String} :
    firstRepeat? seen names = none ↔ names.Nodup ∧ ∀ name ∈ names, name ∉ seen := by
  induction names generalizing seen with
  | nil => simp [firstRepeat?]
  | cons name names ih =>
    by_cases old : name ∈ seen
    · simp [firstRepeat?, old]
    · simp only [firstRepeat?, old, if_false, ih, List.nodup_cons, List.mem_cons, not_or,
        forall_eq_or_imp, not_false_iff, true_and]
      constructor
      · rintro ⟨nodup, unseen⟩
        exact ⟨⟨fun again => (unseen name again).1 rfl, nodup⟩, fun other found =>
          (unseen other found).2⟩
      · rintro ⟨⟨fresh, nodup⟩, unseen⟩
        refine ⟨nodup, fun other found => ⟨?_, unseen other found⟩⟩
        rintro rfl
        exact fresh found

/-- The first repeated name is seen or stands before, and the names before it are not repeated. -/
theorem firstRepeat?_eq_some_iff {seen names : List String} {name : String} :
    firstRepeat? seen names = some name ↔
      ∃ before after, names = before ++ name :: after ∧ firstRepeat? seen before = none ∧
        (name ∈ seen ∨ name ∈ before) := by
  induction names generalizing seen with
  | nil => simp [firstRepeat?]
  | cons first names ih =>
    by_cases old : first ∈ seen
    · simp only [firstRepeat?, old, if_true, Option.some.injEq]
      constructor
      · rintro rfl
        exact ⟨[], names, rfl, rfl, .inl old⟩
      · rintro ⟨before, after, split, fresh, _⟩
        cases before with
        | nil => exact (List.cons.inj split).1
        | cons other before =>
          obtain ⟨rfl, _⟩ := List.cons.inj split
          simp [firstRepeat?, old] at fresh
    · simp only [firstRepeat?, old, if_false, ih]
      constructor
      · rintro ⟨before, after, rfl, fresh, again⟩
        refine ⟨first :: before, after, rfl, by simpa [firstRepeat?, old] using fresh, ?_⟩
        rwa [List.mem_cons, or_left_comm, ← or_assoc, ← List.mem_cons]
      · rintro ⟨before, after, split, fresh, again⟩
        cases before with
        | nil =>
          obtain ⟨rfl, _⟩ := List.cons.inj split
          exact absurd (again.resolve_right List.not_mem_nil) old
        | cons other before =>
          obtain ⟨rfl, rfl⟩ := List.cons.inj split
          refine ⟨before, after, rfl, by simpa [firstRepeat?, old] using fresh, ?_⟩
          rwa [List.mem_cons, or_assoc, or_left_comm, ← List.mem_cons]

theorem mem_distinct {seen names : List String} {name : String} :
    name ∈ distinct seen names ↔ name ∈ names ∧ name ∉ seen := by
  induction names generalizing seen with
  | nil => simp [distinct]
  | cons first names ih =>
    by_cases old : first ∈ seen
    · simp only [distinct, old, if_true, ih, List.mem_cons]
      constructor
      · rintro ⟨later, unseen⟩
        exact ⟨.inr later, unseen⟩
      · rintro ⟨rfl | later, unseen⟩
        · exact absurd old unseen
        · exact ⟨later, unseen⟩
    · simp only [distinct, old, if_false, List.mem_cons, ih, not_or]
      constructor
      · rintro (rfl | ⟨later, _, unseen⟩)
        · exact ⟨.inl rfl, old⟩
        · exact ⟨.inr later, unseen⟩
      · rintro ⟨here | later, unseen⟩
        · exact .inl here
        · by_cases here : name = first
          · exact .inl here
          · exact .inr ⟨later, here, unseen⟩

end PartSorting.Names
