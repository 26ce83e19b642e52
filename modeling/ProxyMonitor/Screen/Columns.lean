namespace ProxyMonitor

inductive ColumnWidth where
  | fixed (width : Nat)
  | share (weight : Nat)
  deriving DecidableEq, Repr

namespace ColumnWidth

def fixedPart : ColumnWidth → Nat
  | fixed width => width
  | share _ => 0

def weight : ColumnWidth → Nat
  | fixed _ => 0
  | share weight => weight

def totalFixed (widths : List ColumnWidth) : Nat :=
  widths.foldl (fun total column => total + column.fixedPart) 0

def totalWeight (widths : List ColumnWidth) : Nat :=
  widths.foldl (fun total column => total + column.weight) 0

def nearest (numerator denominator : Nat) : Nat :=
  (2 * numerator + denominator) / (2 * denominator)

def place (rest total fixedBefore weightBefore : Nat) : Nat :=
  if total = 0 then fixedBefore else fixedBefore + nearest (rest * weightBefore) total

def placeFrom (rest total spacing : Nat) : (fixedBefore weightBefore : Nat) → List ColumnWidth →
    List (Nat × Nat)
  | _, _, [] => []
  | fixedBefore, weightBefore, column :: later =>
    let first := place rest total fixedBefore weightBefore
    let fixedAfter := fixedBefore + column.fixedPart
    let weightAfter := weightBefore + column.weight
    (first, place rest total fixedAfter weightAfter - first) ::
      placeFrom rest total spacing (fixedAfter + spacing) weightAfter later

/-- First place and width of each column; the shares divide what the fixed widths and the spacing
leave. -/
def divide (width spacing : Nat) (widths : List ColumnWidth) : List (Nat × Nat) :=
  let fixedTotal := totalFixed widths + spacing * (widths.length - 1)
  placeFrom (width - fixedTotal) (totalWeight widths) spacing 0 0 widths

def divideEvenly (width count : Nat) : List (Nat × Nat) :=
  divide width 0 (List.replicate count (share 1))

end ColumnWidth

end ProxyMonitor
