import ProxyMonitor.Console
import ProxyMonitor.Console.Placeholder
import ProxyMonitor.Screen.Grid

namespace ProxyMonitor.Console

def shownRows {α : Type} (theme : Theme) (title : String) :
    Fetched (List α) → Except Placeholder (List α)
  | .ready [] => .error ⟨title, "Nothing to show", Style.plain.withDim⟩
  | .ready rows => .ok rows
  | .pending => .error ⟨title, "Loading...", .colored theme.warning⟩
  | .failed text => .error ⟨title, "Request failed: " ++ text, .colored theme.critical⟩

/-- The active column has an arrow, the one under the cursor is underlined. -/
def headerSpan {α : Type} (table : Table α) (place : Nat) (column : TableColumn) : Span :=
  ⟨column.header ++ ((table.sort.directionOf? column.field).map SortDirection.arrow).getD "",
    if place = table.column then Style.plain.withUnderline else .plain⟩

def drawTable {α : Type} (theme : Theme) (table : Table α) (title : String)
    (widths : List ColumnWidth) (rows : List (List GridCell)) (area : Area) (picture : Picture) :
    Picture :=
  let grid : Grid :=
    { widths, rows
      header := table.columns.zipIdx.map fun (column, place) => headerSpan table place column
      headerStyle := theme.header
      selected := Nat.min table.selected (rows.length - 1)
      selectedStyle := theme.selected }
  grid.draw area.inner (picture.panel area title theme.border)

def reportCells (gateway : String) (entry : AggregatedReport) : List GridCell :=
  [.plain (toString entry.index), .plain (gatewayLink gateway entry.url),
    .plain (", ".intercalate entry.categories), .plain (toString entry.count),
    .plain entry.updatedAt]

def documentCells (gateway : String) (theme : Theme) (document : Document) : List GridCell :=
  [.plain (toString document.index), .plain (gatewayLink gateway document.url),
    .plain (", ".intercalate document.categories),
    ⟨document.status.text, theme.document document.status⟩, .plain document.provider]

def drawReports (console : Console) (area : Area) (picture : Picture) : Picture :=
  match shownRows console.theme "Reports" console.reports.rows with
  | .error placeholder => placeholder.draw console.theme area picture
  | .ok entries =>
    let total := entries.foldl (fun total entry => total + entry.count) 0
    drawTable console.theme console.reports
      (" Reports (" ++ toString entries.length ++ " URLs, " ++ toString total ++
        " reports) [r:refresh] ")
      [.fixed 5, .share 4, .share 2, .fixed 8, .share 1]
      (entries.map (reportCells console.gateway)) area picture

def drawModeration (console : Console) (area : Area) (picture : Picture) : Picture :=
  match shownRows console.theme "Moderation" console.documents.rows with
  | .error placeholder => placeholder.draw console.theme area picture
  | .ok documents =>
    drawTable console.theme console.documents
      (" Moderation (" ++ toString documents.length ++ " documents) ")
      [.fixed 5, .share 4, .share 2, .fixed 11, .share 1]
      (documents.map (documentCells console.gateway console.theme)) area picture

end ProxyMonitor.Console
