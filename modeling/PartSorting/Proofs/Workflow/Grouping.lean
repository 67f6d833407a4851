import PartSorting.Proofs.Workflow.Sighting
import PartSorting.Table.Rows

/-! # A workflow groups rows along the routes of their parts

Every row is in exactly one group, the one for the name to which the workflow sends its part, and
it occurs there as often as among all rows.  No group is empty. -/

set_option autoImplicit false

namespace PartSorting.Workflow

def collect (target : String) (rows : List Row) : List (String × List Row) :=
  if rows ≠ [] then [(target, rows)] else []

theorem sightings_collect (target : String) (rows : List Row) (row : Row) :
    sightings (List.count row) (collect target rows) =
      sightedOnce target (rows.count row) := by
  apply sightings_passed
  intro empty
  rw [Decidable.not_not.mp empty]
  rfl

theorem groupBy_nil (fallback : String) (rows : List Row) :
    groupBy fallback [] rows = collect fallback rows := by
  cases rows with
  | nil => rfl
  | cons row rows => rfl

theorem groupBy_cons (fallback : String) (rule : Rule) (rules : List Rule) (rows : List Row) :
    groupBy fallback (rule :: rules) rows =
      collect rule.target (rows.filter fun row => rule.condition.admits row.1) ++
        groupBy fallback rules (rows.filter fun row => !rule.condition.admits row.1) := by
  simp only [groupBy, collect, List.partition_eq_filter_filter]
  cases rows.filter fun row => rule.condition.admits row.1 with
  | nil => rfl
  | cons row hits => rfl

theorem count_filter_admits (condition : Condition) (wanted : Bool) (rows : List Row) (row : Row) :
    (rows.filter fun row => condition.admits row.1 == wanted).count row =
      if condition.admits row.1 = wanted then rows.count row else 0 := by
  by_cases admitted : condition.admits row.1 = wanted
  · rw [if_pos admitted]
    exact List.count_filter (by simpa using admitted)
  · rw [if_neg admitted]
    apply List.count_eq_zero.mpr
    intro member
    have chosen := (List.mem_filter.mp member).2
    exact admitted (by simpa using chosen)

theorem ne_nil_of_mem_groupBy (fallback : String) (rules : List Rule) (rows : List Row)
    (group : String × List Row) (member : group ∈ groupBy fallback rules rows) :
    group.2 ≠ [] := by
  have collected : ∀ (target : String) (hits : List Row),
      group ∈ collect target hits → group.2 ≠ [] := by
    intro target hits inCollect
    simp only [collect] at inCollect
    split at inCollect
    · rename_i notEmpty
      obtain rfl := List.mem_singleton.mp inCollect
      exact notEmpty
    · exact absurd inCollect List.not_mem_nil
  induction rules generalizing rows with
  | nil =>
      rw [groupBy_nil] at member
      exact collected fallback rows member
  | cons rule rules ih =>
      rw [groupBy_cons] at member
      rcases List.mem_append.mp member with matched | later
      · exact collected _ _ matched
      · exact ih _ later

/-- The rules and the fallback together take every row exactly once. -/
theorem sightings_groupBy (fallback : String) (rules : List Rule) (rows : List Row) (row : Row) :
    sightings (List.count row) (groupBy fallback rules rows) =
      sightedOnce (routeBy fallback rules row.1) (rows.count row) := by
  induction rules generalizing rows with
  | nil =>
      rw [groupBy_nil]
      exact sightings_collect fallback rows row
  | cons rule rules ih =>
      have hits := count_filter_admits rule.condition true rows row
      have others := count_filter_admits rule.condition false rows row
      simp only [beq_true, beq_false] at hits others
      rw [groupBy_cons, sightings_append, sightings_collect, ih, routeBy]
      apply sightedOnce_append _ _ hits
      rw [others]
      cases rule.condition.admits row.1 with
      | false => rfl
      | true => rfl

end PartSorting.Workflow
