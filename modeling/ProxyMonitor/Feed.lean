import ProxyMonitor.Document
import ProxyMonitor.Fetched
import ProxyMonitor.Report
import ProxyMonitor.Sampler

namespace ProxyMonitor

/-- Keeps the latest value; `published` and `seen` count publications. -/
structure Channel (α : Type) where
  value : α
  published : Nat
  seen : Nat
  closed : Bool

namespace Channel

variable {α : Type}

def new (value : α) : Channel α := ⟨value, 0, 0, false⟩

def publish (channel : Channel α) (value : α) : Channel α :=
  { channel with value, published := channel.published + 1 }

def close (channel : Channel α) : Channel α := { channel with closed := true }

def hasNew (channel : Channel α) : Bool := channel.seen != channel.published

def markSeen (channel : Channel α) : Channel α := { channel with seen := channel.published }

def poll (channel : Channel α) : Option α × Channel α :=
  (if channel.hasNew then some channel.value else none, channel.markSeen)

end Channel

/-- At most one report request is queued; `requestsClosed` says that nobody takes them any more,
`dropped` that the consumer is gone. -/
structure Feed where
  metrics : Channel MetricsState
  reports : Channel (Fetched (List AggregatedReport))
  documents : Channel (Fetched (List Document))
  info : Channel (Fetched BuildInfo)
  requestQueued : Bool
  requestsClosed : Bool
  dropped : Bool

inductive FeedPart where
  | metrics
  | reports
  | documents
  | info
  deriving DecidableEq

namespace FeedPart

@[reducible]
def Value : FeedPart → Type
  | metrics => MetricsState
  | reports => Fetched (List AggregatedReport)
  | documents => Fetched (List Document)
  | info => Fetched BuildInfo

end FeedPart

namespace Feed

def channel (feed : Feed) : (part : FeedPart) → Channel part.Value
  | .metrics => feed.metrics
  | .reports => feed.reports
  | .documents => feed.documents
  | .info => feed.info

def setChannel (feed : Feed) : (part : FeedPart) → Channel part.Value → Feed
  | .metrics, metrics => { feed with metrics }
  | .reports, reports => { feed with reports }
  | .documents, documents => { feed with documents }
  | .info, info => { feed with info }

def new : Feed where
  metrics := .new (.new (.new .default))
  reports := .new .pending
  documents := .new .pending
  info := .new .pending
  requestQueued := false
  requestsClosed := false
  dropped := false

def requestReports (feed : Feed) : Bool × Feed :=
  if feed.requestQueued || feed.requestsClosed then (false, feed)
  else (true, { feed with requestQueued := true })

def close (feed : Feed) : Feed :=
  { feed with
    metrics := feed.metrics.close
    reports := feed.reports.close
    documents := feed.documents.close
    info := feed.info.close
    requestQueued := false
    requestsClosed := true }

def drop (feed : Feed) : Feed := { feed with dropped := true }

end Feed

end ProxyMonitor
