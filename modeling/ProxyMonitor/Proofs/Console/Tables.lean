import ProxyMonitor.Console.Table
import ProxyMonitor.Proofs.Sorting

namespace ProxyMonitor

variable {α : Type} [Sortable α]

/-- The rows are those that were given, in the order of a sort state. -/
inductive Arranged (sort : SortState) : Fetched (List α) → Fetched (List α) → Prop where
  | pending : Arranged sort .pending .pending
  | failed (text : String) : Arranged sort (.failed text) (.failed text)
  | ready {given rows : List α} (perm : rows.Perm given)
      (ordered : Ordered sort.field sort.direction rows) : Arranged sort (.ready given) (.ready rows)

/-- What holds of a table with these columns that was last given some rows. -/
structure Table.Kept (columns : List TableColumn) (given : Fetched (List α)) (table : Table α) :
    Prop where
  sameColumns : table.columns = columns
  cursor : table.column < columns.length
  selection : table.selected ≤ max table.length 1 - 1
  active : table.sort.active = true
  listed : table.sort.field ∈ columns.map TableColumn.field
  arranged : Arranged table.sort given table.rows

namespace SortState

/-- A column is chosen: the one in force turns around, any other begins ascending. -/
def pick (sort : SortState) (field : String) : SortState :=
  ⟨field, if sort.field = field then sort.direction.toggled else .ascending, true⟩

theorem activate_eq_pick {sort : SortState} (active : sort.active = true) (field : String) :
    sort.activate field = sort.pick field := by
  rw [activate, isActive, active, Bool.true_and, pick]
  by_cases same : sort.field = field
  · rw [if_pos (beq_iff_eq.mpr same), if_pos same, same]
  · rw [if_neg (mt beq_iff_eq.mp same), if_neg same, new]

theorem apply_perm (sort : SortState) (rows : List α) : (sort.apply rows).Perm rows :=
  sortRows_perm rows sort.field sort.direction

theorem arranged_apply (sort : SortState) (rows : Fetched (List α)) :
    Arranged sort rows (rows.map sort.apply) := by
  cases rows with
  | pending => exact .pending
  | failed text => exact .failed text
  | ready rows =>
      exact .ready (sort.apply_perm rows) (ordered_sortRows rows sort.field sort.direction)

theorem arranged_reapply {before : SortState} {given rows : Fetched (List α)}
    (h : Arranged before given rows) (sort : SortState) :
    Arranged sort given (rows.map sort.apply) := by
  cases h with
  | pending => exact .pending
  | failed text => exact .failed text
  | @ready _ rows perm =>
      exact .ready ((sort.apply_perm rows).trans perm)
        (ordered_sortRows rows sort.field sort.direction)

end SortState

theorem Fetched.length_map_apply (sort : SortState) (rows : Fetched (List α)) :
    ((rows.map sort.apply).ready?.getD []).length = (rows.ready?.getD []).length := by
  cases rows with
  | ready rows => exact (sort.apply_perm rows).length_eq
  | _ => rfl

theorem Table.lastRow_eq {β : Type} (table : Table β) : table.lastRow = max table.length 1 - 1 := by
  rw [lastRow]
  omega

namespace Table.Kept

variable {columns : List TableColumn} {given : Fetched (List α)} {table : Table α}

theorem new (index : "index" ∈ columns.map TableColumn.field) :
    Kept columns .pending (Table.new (α := α) columns) where
  sameColumns := rfl
  cursor := by
    obtain ⟨column, member, -⟩ := List.mem_map.mp index
    exact List.length_pos_of_mem member
  selection := Nat.zero_le _
  active := rfl
  listed := index
  arranged := .pending

theorem replace (h : Kept columns given table) (rows : Fetched (List α)) :
    Kept columns rows (table.replace rows) where
  sameColumns := h.sameColumns
  cursor := h.cursor
  selection := lastRow_eq (table.replace rows) ▸ Nat.min_le_right _ _
  active := h.active
  listed := h.listed
  arranged := table.sort.arranged_apply rows

theorem nextColumn (h : Kept columns given table) : Kept columns given table.nextColumn :=
  { h with
    cursor := by
      rw [Table.nextColumn, h.sameColumns]
      exact Nat.mod_lt _ (Nat.zero_lt_of_lt h.cursor) }

theorem previousColumn (h : Kept columns given table) : Kept columns given table.previousColumn :=
  { h with
    cursor := by
      rw [Table.previousColumn, h.sameColumns]
      exact Nat.mod_lt _ (Nat.zero_lt_of_lt h.cursor) }

theorem selectNext (h : Kept columns given table) (count : Nat) :
    Kept columns given (table.selectNext count) :=
  { h with selection := lastRow_eq table ▸ Nat.min_le_right _ _ }

theorem selectPrevious (h : Kept columns given table) (count : Nat) :
    Kept columns given (table.selectPrevious count) :=
  { h with selection := Nat.le_trans (Nat.sub_le _ _) h.selection }

theorem activateSort (h : Kept columns given table) : Kept columns given table.activateSort := by
  have inside : table.column < table.columns.length := h.sameColumns ▸ h.cursor
  rw [Table.activateSort, List.getElem?_eq_getElem inside]
  constructor
  · exact h.sameColumns
  · exact h.cursor
  · have same := Fetched.length_map_apply
      (table.sort.activate table.columns[table.column].field) table.rows
    rw [Table.length, same]
    exact h.selection
  · exact table.sort.activate_active _
  · rw [SortState.activate_field, ← h.sameColumns]
    exact List.mem_map_of_mem (List.getElem_mem inside)
  · exact SortState.arranged_reapply h.arranged _

theorem sort_activateSort (h : Kept columns given table) :
    table.activateSort.sort =
      (columns[table.column]?.map TableColumn.field).elim table.sort table.sort.pick := by
  rw [Table.activateSort, h.sameColumns]
  cases columns[table.column]? with
  | none => rfl
  | some column => exact SortState.activate_eq_pick h.active column.field

end Table.Kept

end ProxyMonitor
