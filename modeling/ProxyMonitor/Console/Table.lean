import ProxyMonitor.Document
import ProxyMonitor.Fetched
import ProxyMonitor.Report

namespace ProxyMonitor

structure TableColumn where
  field : String
  header : String
  deriving DecidableEq

structure Table (α : Type) where
  columns : List TableColumn
  rows : Fetched (List α)
  sort : SortState
  column : Nat
  selected : Nat

namespace Table

variable {α : Type}

def new (columns : List TableColumn) : Table α := ⟨columns, .pending, .initial, 0, 0⟩

def length (table : Table α) : Nat := (table.rows.ready?.getD []).length

def lastRow (table : Table α) : Nat := table.length - 1

def clampSelection (table : Table α) : Table α :=
  { table with selected := Nat.min table.selected table.lastRow }

def replace [Sortable α] (table : Table α) (rows : Fetched (List α)) : Table α :=
  { table with rows := rows.map table.sort.apply }.clampSelection

def nextColumn (table : Table α) : Table α :=
  { table with column := (table.column + 1) % table.columns.length }

def previousColumn (table : Table α) : Table α :=
  { table with column := (table.column + table.columns.length - 1) % table.columns.length }

def activateSort [Sortable α] (table : Table α) : Table α :=
  match table.columns[table.column]? with
  | none => table
  | some column =>
    let sort := table.sort.activate column.field
    { table with sort, rows := table.rows.map sort.apply }

def selectNext (table : Table α) (count : Nat) : Table α :=
  { table with selected := Nat.min (table.selected + count) table.lastRow }

def selectPrevious (table : Table α) (count : Nat) : Table α :=
  { table with selected := table.selected - count }

end Table

def reportColumns : List TableColumn :=
  [⟨"index", "#"⟩, ⟨"url", "URL"⟩, ⟨"categories", "Categories"⟩, ⟨"num_reports", "Reports"⟩,
    ⟨"updated_at", "Updated"⟩]

def documentColumns : List TableColumn :=
  [⟨"index", "#"⟩, ⟨"url", "URL"⟩, ⟨"categories", "Categories"⟩, ⟨"status", "Status"⟩,
    ⟨"provider", "Provider"⟩]

end ProxyMonitor
