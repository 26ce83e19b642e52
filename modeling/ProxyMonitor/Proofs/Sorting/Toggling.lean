import Mathlib.Algebra.Ring.Parity
import Mathlib.Data.List.DropRight
import ProxyMonitor.Proofs.Sorting.Stability

/-! Columns activated one after the other: the direction tells how often the last one was activated
in a row, and two more activations of it bring back the rows as they stood. -/

namespace ProxyMonitor

namespace SortDirection

theorem toggled_toggled (direction : SortDirection) : direction.toggled.toggled = direction := by
  cases direction <;> rfl

theorem toggled_eq_ascending_iff {direction : SortDirection} :
    direction.toggled = ascending ↔ ¬ direction = ascending := by
  cases direction <;> simp [toggled]

end SortDirection

/-- How often a column was activated at the end, with no other in between. -/
def finalRun (fields : List String) (field : String) : Nat := (fields.rtakeWhile (· == field)).length

theorem finalRun_concat (fields : List String) (field : String) :
    finalRun (fields ++ [field]) field = finalRun fields field + 1 := by
  rw [finalRun, List.rtakeWhile_concat_pos (· == field) fields field (beq_self_eq_true field),
    List.length_append]
  rfl

theorem finalRun_of_other {fields : List String} {field other : String}
    (last : fields.getLast? = some other) (apart : other ≠ field) : finalRun fields field = 0 := by
  obtain ⟨before, rfl⟩ := List.getLast?_eq_some_iff.mp last
  rw [finalRun, List.rtakeWhile_concat_neg (· == field) before other (by simpa using apart)]
  rfl

theorem finalRun_cons (first : String) (fields : List String) (field : String) :
    finalRun (first :: fields) field =
      if finalRun fields field = fields.length ∧ field = first then finalRun fields field + 1
      else finalRun fields field := by
  simp only [finalRun, List.rtakeWhile, List.length_reverse, List.reverse_cons,
    List.takeWhile_append]
  by_cases whole : (fields.reverse.takeWhile (· == field)).length = fields.length
  · by_cases same : field = first
    · subst same
      simp [whole]
    · simp [whole, same, Ne.symm same]
  · simp [whole]

namespace SortState

theorem activate_eq {state : SortState} (active : state.active = true) (field : String) :
    state.activate field =
      ⟨field, if state.field = field then state.direction.toggled else .ascending, true⟩ := by
  by_cases same : state.field = field
  · simp [activate, isActive, active, same]
  · simp [activate, isActive, same, new]

theorem directionOf?_of_active {state : SortState} (active : state.active = true) (other : String) :
    state.directionOf? other = if other = state.field then some state.direction else none := by
  by_cases same : other = state.field
  · simp [directionOf?, isActive, active, same]
  · simp [directionOf?, isActive, same, Ne.symm same]

/-- Some chosen columns led to this state. -/
structure Follows (state : SortState) (chosen : List String) : Prop where
  active : state.active = true
  last : chosen.getLast? = some state.field
  ascending_iff : state.direction = .ascending ↔ Odd (finalRun chosen state.field)

namespace Follows

theorem new (initial : String) : (SortState.new initial).Follows [initial] where
  active := rfl
  last := rfl
  ascending_iff := by simp [SortState.new, finalRun, List.rtakeWhile]

theorem activate {chosen : List String} {state : SortState} (h : state.Follows chosen)
    (field : String) : (state.activate field).Follows (chosen ++ [field]) := by
  rw [activate_eq h.active]
  refine ⟨rfl, List.getLast?_concat, ?_⟩
  simp only [finalRun_concat]
  by_cases same : state.field = field
  · subst same
    rw [if_pos rfl, SortDirection.toggled_eq_ascending_iff, h.ascending_iff, Nat.odd_add_one]
  · rw [if_neg same, finalRun_of_other h.last same]
    simp

theorem run {chosen : List String} {state : SortState} (h : state.Follows chosen)
    (fields : List String) : (fields.foldl SortState.activate state).Follows (chosen ++ fields) := by
  induction fields generalizing chosen state with
  | nil => rwa [List.append_nil]
  | cons field rest ih =>
      have later := ih (h.activate field)
      rwa [List.append_assoc] at later

end Follows

variable {α : Type} [Sortable α]

def activateAll (state : SortState) (fields : List String) (rows : List α) : SortState × List α :=
  fields.foldl (fun shown field => shown.1.activateRows field shown.2) (state, rows)

theorem activateAll_concat (state : SortState) (fields : List String) (field : String)
    (rows : List α) :
    state.activateAll (fields ++ [field]) rows =
      (state.activateAll fields rows).1.activateRows field (state.activateAll fields rows).2 := by
  rw [activateAll, List.foldl_append]
  rfl

theorem activateAll_state (state : SortState) (fields : List String) (rows : List α) :
    (state.activateAll fields rows).1 = fields.foldl activate state := by
  induction fields generalizing state rows with
  | nil => rfl
  | cons field rest ih => exact ih (state.activate field) _

theorem stablySorted_activateRows (state : SortState) (field : String) (rows : List α) :
    StablySorted field (state.activate field).direction rows (state.activateRows field rows).2 := by
  rw [activateRows, apply, activate_field]
  exact stablySorted_sortRows rows field _

theorem sortRows_sortRows {field : String} {direction : SortDirection} {rows : List α}
    (ordered : Ordered field direction rows) (other : SortDirection) :
    sortRows (sortRows rows field other) field direction = rows :=
  sortRows_eq_of_keyed ordered fun key => (keyed_sortRows rows field other key).symm

theorem activate_activate {state : SortState} (active : state.active = true) :
    (state.activate state.field).activate state.field = state := by
  rw [activate_eq active, activate_eq rfl, if_pos rfl, if_pos rfl, SortDirection.toggled_toggled,
    ← active]

theorem activateAll_twice {state : SortState} {rows : List α} (active : state.active = true)
    (ordered : Ordered state.field state.direction rows) :
    state.activateAll [state.field, state.field] rows = (state, rows) := by
  have back : state.apply ((state.activate state.field).apply rows) = rows := by
    rw [apply, apply, activate_field]
    exact sortRows_sortRows ordered _
  calc
    state.activateAll [state.field, state.field] rows =
        ((state.activate state.field).activate state.field,
          ((state.activate state.field).activate state.field).apply
            ((state.activate state.field).apply rows)) := rfl
    _ = (state, rows) := by rw [activate_activate active, back]

end SortState

/-- What holds of a sort state and its rows `later`, when the last one of some activated columns was
activated on `earlier`. -/
structure Toggled {α : Type} [Sortable α] (initial field : String) (fields : List String)
    (earlier later : SortState × List α) : Prop where
  active : later.1.active = true
  column : later.1.field = field
  /-- The initial column counts as activated once, before all others. -/
  ascending_iff : later.1.direction = .ascending ↔
    if finalRun fields field = fields.length ∧ field = initial then Even (finalRun fields field)
    else Odd (finalRun fields field)
  directionOf : ∀ other,
    later.1.directionOf? other = if other = field then some later.1.direction else none
  sorted : StablySorted field later.1.direction earlier.2 later.2
  restored : later.1.activateAll [field, field] later.2 = later

theorem toggled_of_follows {α : Type} [Sortable α] {initial field : String} {fields : List String}
    {earlier later : SortState × List α} (follows : later.1.Follows (initial :: fields))
    (column : later.1.field = field)
    (sorted : StablySorted field later.1.direction earlier.2 later.2) :
    Toggled initial field fields earlier later where
  active := follows.active
  column
  ascending_iff := by
    rw [follows.ascending_iff, column, finalRun_cons]
    split
    · exact Nat.odd_add_one.trans Nat.not_odd_iff_even
    · rfl
  directionOf := by
    intro other
    rw [SortState.directionOf?_of_active follows.active, column]
  sorted
  restored := by
    subst column
    exact SortState.activateAll_twice follows.active (ordered_iff.mpr sorted.ordered)

/-- After every run of activations, the direction, the rows and what two more activations do. -/
theorem activations_toggle {α : Type} [Sortable α] (initial : String) (rows : List α)
    (before : List String) (field : String) :
    Toggled initial field (before ++ [field]) ((SortState.new initial).activateAll before rows)
      ((SortState.new initial).activateAll (before ++ [field]) rows) := by
  have follows := (SortState.Follows.new initial).run (before ++ [field])
  rw [← SortState.activateAll_state _ _ rows] at follows
  apply toggled_of_follows follows
  · rw [SortState.activateAll_concat]
    exact SortState.activate_field _ field
  · rw [SortState.activateAll_concat]
    exact SortState.stablySorted_activateRows _ field _

end ProxyMonitor
