import ProxyMonitor.Labels
import ProxyMonitor.Word

namespace ProxyMonitor

inductive SortKey where
  | int (value : Int)
  | text (value : String)
  deriving DecidableEq

namespace SortKey

def ofWord (n : Nat) : SortKey := .int (Word.toSigned n)

/-- A missing key comes first, then integers, then texts by code points. -/
def le : Option SortKey → Option SortKey → Bool
  | none, _ => true
  | some _, none => false
  | some (.int a), some (.int b) => decide (a ≤ b)
  | some (.int _), some (.text _) => true
  | some (.text _), some (.int _) => false
  | some (.text a), some (.text b) => decide (a ≤ b)

end SortKey

class Sortable (α : Type) where
  key : α → String → Option SortKey

inductive SortDirection where
  | ascending
  | descending
  deriving DecidableEq, Repr

namespace SortDirection

def toggled : SortDirection → SortDirection
  | ascending => descending
  | descending => ascending

def arrow : SortDirection → String
  | ascending => "↑"
  | descending => "↓"

end SortDirection

/-- Stable in both directions: rows with equal keys stay in order. -/
def sortRows {α : Type} [Sortable α] (rows : List α) (field : String) (direction : SortDirection) :
    List α :=
  rows.mergeSort fun a b =>
    match direction with
    | .ascending => SortKey.le (Sortable.key a field) (Sortable.key b field)
    | .descending => SortKey.le (Sortable.key b field) (Sortable.key a field)

structure SortState where
  field : String
  direction : SortDirection
  active : Bool
  deriving DecidableEq

namespace SortState

def new (field : String) : SortState := ⟨field, .ascending, true⟩

def initial : SortState := new "index"

def isActive (state : SortState) (field : String) : Bool := state.active && state.field == field

def directionOf? (state : SortState) (field : String) : Option SortDirection :=
  if state.isActive field then some state.direction else none

/-- The active column turns around, any other becomes active and ascending. -/
def activate (state : SortState) (field : String) : SortState :=
  if state.isActive field then { state with direction := state.direction.toggled } else new field

def apply {α : Type} [Sortable α] (state : SortState) (rows : List α) : List α :=
  sortRows rows state.field state.direction

def activateRows {α : Type} [Sortable α] (state : SortState) (field : String) (rows : List α) :
    SortState × List α :=
  let state := state.activate field
  (state, state.apply rows)

end SortState

end ProxyMonitor
