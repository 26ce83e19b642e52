import ProxyMonitor.Screen.Columns
import ProxyMonitor.Screen.Picture

namespace ProxyMonitor

structure GridCell where
  text : String
  style : Style

namespace GridCell

def plain (text : String) : GridCell := ⟨text, .plain⟩

def line (cell : GridCell) : Line := (Line.ofText cell.text).headD []

end GridCell

structure Grid where
  widths : List ColumnWidth
  header : Line
  headerStyle : Style
  rows : List (List GridCell)
  selected : Nat
  selectedStyle : Style

namespace Grid

def mark : String := "▶ "

def markWidth : Nat := 2

/-- The rows come in view from the first one, as far down as the selected one needs. -/
def firstVisible (grid : Grid) (height : Nat) : Nat := grid.selected + 1 - height

def cellAreas (grid : Grid) (row : Area) : List Area :=
  (ColumnWidth.divide (row.width - markWidth) 1 grid.widths).map fun (place, width) =>
    ⟨row.left + markWidth + place, row.top, width, row.height⟩

def drawHeader (grid : Grid) (row : Area) (picture : Picture) : Picture :=
  ((grid.cellAreas row).zip grid.header).foldl
    (fun picture (area, span) => picture.write area [span]) (picture.patch row grid.headerStyle)

def drawCells (grid : Grid) (row : Area) (cells : List GridCell) (picture : Picture) : Picture :=
  ((grid.cellAreas row).zip cells).foldl
    (fun picture (area, cell) => (picture.patch area cell.style).write area cell.line) picture

def drawRow (grid : Grid) (row : Area) (isSelected : Bool) (cells : List GridCell)
    (picture : Picture) : Picture :=
  if isSelected then
    (grid.drawCells row cells
      (picture.write { row with width := Nat.min markWidth row.width } (.raw mark))).patch row
      grid.selectedStyle
  else grid.drawCells row cells picture

def draw (grid : Grid) (area : Area) (picture : Picture) : Picture :=
  if area.isEmpty then picture
  else
    let height := area.height - 1
    let first := grid.firstVisible height
    ((grid.rows.drop first).take height).zipIdx.foldl
      (fun picture (cells, place) =>
        grid.drawRow ⟨area.left, area.top + 1 + place, area.width, 1⟩
          (first + place = grid.selected) cells picture)
      (grid.drawHeader { area with height := 1 } picture)

end Grid

end ProxyMonitor
