import ProxyMonitor.Binary64
import ProxyMonitor.Labels

namespace ProxyMonitor

inductive MetricKind where
  | counter
  | gauge
  | histogram
  | summary
  | unknown
  deriving DecidableEq, Repr, Inhabited

namespace MetricKind

def token : MetricKind → String
  | counter => "counter"
  | gauge => "gauge"
  | histogram => "histogram"
  | summary => "summary"
  | unknown => "untyped"

def ofToken (word : String) : MetricKind :=
  if word = "counter" then counter
  else if word = "gauge" then gauge
  else if word = "histogram" then histogram
  else if word = "summary" then summary
  else unknown

def name : MetricKind → String
  | unknown => "unknown"
  | kind => kind.token

end MetricKind

structure Bucket where
  upperBound : Binary64
  cumulative : Binary64
  deriving DecidableEq

structure Quantile where
  quantile : Binary64
  value : Binary64
  deriving DecidableEq

inductive SampleValue where
  | single (value : Binary64)
  | histogram (buckets : List Bucket) (sum count : Binary64)
  | summary (quantiles : List Quantile) (sum count : Binary64)
  deriving DecidableEq

structure Sample where
  labels : Labels
  value : SampleValue
  deriving DecidableEq

namespace Sample

/-- Histograms and summaries stand for their count. -/
def number (sample : Sample) : Binary64 :=
  match sample.value with
  | .single value => value
  | .histogram _ _ count => count
  | .summary _ _ count => count

def buckets? (sample : Sample) : Option (List Bucket) :=
  match sample.value with
  | .histogram buckets _ _ => some buckets
  | _ => none

def label? (sample : Sample) (name : String) : Option String := sample.labels.get? name

end Sample

structure Family where
  name : String
  help : String
  kind : MetricKind
  samples : List Sample
  deriving DecidableEq

end ProxyMonitor
