import ProxyMonitor.Console.Table
import ProxyMonitor.Export
import ProxyMonitor.Theme
import ProxyMonitor.View

namespace ProxyMonitor

structure StatusMessage where
  text : String
  shownMs : Nat
  deriving DecidableEq

structure Console where
  running : Bool
  view : View
  helpShown : Bool
  source : String
  feed : Feed
  metrics : MetricsState
  reports : Table AggregatedReport
  documents : Table Document
  info : Fetched BuildInfo
  gateway : String
  theme : Theme
  status : Option StatusMessage

inductive Command where
  | quit
  | goTo (view : View)
  | nextView
  | previousView
  | nextColumn
  | previousColumn
  | selectNext (count : Nat)
  | selectPrevious (count : Nat)
  | activateSort
  | requestReports
  | showHelp
  | exportState
  deriving DecidableEq, Repr

namespace Console

def new (source gateway : String) (theme : Theme) : Console where
  running := true
  view := .metrics
  helpShown := false
  source := source
  feed := .new
  metrics := .new (.new .default)
  reports := .new reportColumns
  documents := .new documentColumns
  info := .pending
  gateway := gateway
  theme := theme
  status := none

def statusSpanMs : Nat := 3000

def showStatus (console : Console) (text : String) (nowMs : Nat) : Console :=
  { console with status := some ⟨text, nowMs⟩ }

def status? (console : Console) (nowMs : Nat) : Option String :=
  (console.status.filter fun message => nowMs - message.shownMs < statusSpanMs).map
    StatusMessage.text

/-- Takes what was published since the last call, and says whether there was anything. -/
def reload (console : Console) : Bool × Console :=
  let (metrics, metricsChannel) := console.feed.metrics.poll
  let (reports, reportsChannel) := console.feed.reports.poll
  let (documents, documentsChannel) := console.feed.documents.poll
  let (info, infoChannel) := console.feed.info.poll
  (metrics.isSome || reports.isSome || documents.isSome || info.isSome,
    { console with
      feed := { console.feed with
        metrics := metricsChannel
        reports := reportsChannel
        documents := documentsChannel
        info := infoChannel }
      metrics := metrics.getD console.metrics
      reports := (reports.map console.reports.replace).getD console.reports
      documents := (documents.map console.documents.replace).getD console.documents
      info := info.getD console.info })

def onTable (console : Console)
    (act : {α : Type} → [Sortable α] → Table α → Table α) : Console :=
  match console.view with
  | .reports => { console with reports := act console.reports }
  | .moderation => { console with documents := act console.documents }
  | .metrics | .info => console

def requestReports (console : Console) (nowMs : Nat) : Console :=
  let (queued, feed) := console.feed.requestReports
  { console with feed }.showStatus
    (if queued then "Refreshing reports..." else "Report refresh already queued") nowMs

def exportPath : String := "imgproxy_doctor_export.json"

def exportFailed (console : Console) (reason : String) (nowMs : Nat) : Console :=
  console.showStatus ("Export failed: " ++ reason) nowMs

/-- Before the first poll there is nothing to export. -/
def export? (console : Console) (nowMs : Nat) : Option Export :=
  if console.metrics.sequence = 0 then none
  else some ⟨console.source, nowMs, console.metrics, console.reports.rows, console.documents.rows,
    console.info⟩

def perform (console : Console) (nowMs : Nat) : Command → Console × Option Export
  | .quit => ({ console with running := false }, none)
  | .goTo view => ({ console with view }, none)
  | .nextView => ({ console with view := console.view.next }, none)
  | .previousView => ({ console with view := console.view.previous }, none)
  | .nextColumn => (console.onTable fun table => table.nextColumn, none)
  | .previousColumn => (console.onTable fun table => table.previousColumn, none)
  | .selectNext count => (console.onTable fun table => table.selectNext count, none)
  | .selectPrevious count => (console.onTable fun table => table.selectPrevious count, none)
  | .activateSort => (console.onTable fun table => table.activateSort, none)
  | .requestReports => (console.requestReports nowMs, none)
  | .showHelp => ({ console with helpShown := true }, none)
  | .exportState => match console.export? nowMs with
    | some data => (console.showStatus ("Exported to " ++ exportPath) nowMs, some data)
    | none => (console.exportFailed "No data to export" nowMs, none)

end Console

end ProxyMonitor
