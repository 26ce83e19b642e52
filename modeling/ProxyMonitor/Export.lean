import ProxyMonitor.Feed
import ProxyMonitor.Json.Writer

namespace ProxyMonitor

def Fetched.toJson {α : Type} (encode : α → Json) : Fetched α → Json
  | .pending => .object [("state", .string "pending")]
  | .ready value => .object [("state", .string "ready"), ("value", encode value)]
  | .failed text => .object [("state", .string "failed"), ("value", .string text)]

def Availability.toJson : Availability → Json
  | .pending => .object [("state", .string "pending")]
  | .available => .object [("state", .string "available")]
  | .unavailable status => .object [("state", .string "unavailable"), ("status", .ofNat status)]

def Window.toJson (window : Window) : Json :=
  .object [("capacity", .ofNat window.capacity),
    ("points", .array (window.points.map fun point =>
      .object [("timestamp_ms", .ofNat point.timeMs), ("value", .ofDouble point.value)]))]

def History.toJson (history : History) : Json :=
  .object [("requests", history.requests.toJson), ("memory", history.memory.toJson),
    ("fetched", history.fetched.toJson), ("served", history.served.toJson)]

def StatBlock.toJson (block : StatBlock) : Json :=
  .object [("title", .string block.title), ("value", .string block.value),
    ("units", .ofOption .string block.units), ("hint", .string block.hint)]

def Bar.toJson (bar : Bar) : Json :=
  .object [("label", .string bar.label), ("upper_bound", .ofDouble bar.upperBound),
    ("count", .ofNat bar.count)]

def Overview.toJson (overview : Overview) : Json :=
  .object [("blocks", .array (overview.blocks.map StatBlock.toJson)),
    ("response_times", .array (overview.responseTimes.map Bar.toJson))]

structure Export where
  source : String
  nowMs : Nat
  metrics : MetricsState
  reports : Fetched (List AggregatedReport)
  documents : Fetched (List Document)
  info : Fetched BuildInfo

namespace Export

def toJson (data : Export) : Json :=
  Json.canonical (.object [
    ("source", .string data.source),
    ("exported_at_ms", .ofNat data.nowMs),
    ("availability", data.metrics.availability.toJson),
    ("last_updated_ms", .ofOption .ofNat data.metrics.lastUpdatedMs),
    ("last_error", .ofOption .string data.metrics.lastError),
    ("skipped_lines", .ofNat data.metrics.skippedLines),
    ("overview", (data.metrics.overview data.nowMs).toJson),
    ("history", data.metrics.history.toJson),
    ("reports", data.reports.toJson fun entries => .array (entries.map AggregatedReport.toJson)),
    ("documents", data.documents.toJson fun documents => .array (documents.map Document.toJson)),
    ("info", data.info.toJson BuildInfo.toJson)])

def text (data : Export) : String := data.toJson.pretty

end Export

end ProxyMonitor
