import ProxyMonitor.Export
import ProxyMonitor.Sampling
import ProxyMonitor.Source.Data

/-! Gathering what is exported: one poll, and then each list once it has settled. -/

namespace ProxyMonitor

inductive Gathering where
  | atMetrics
  | atReports (metrics : MetricsState)
  | atDocuments (metrics : MetricsState) (reports : Fetched (List AggregatedReport))
  | atInfo (metrics : MetricsState) (reports : Fetched (List AggregatedReport))
    (documents : Fetched (List Document))
  | done (metrics : MetricsState) (reports : Fetched (List AggregatedReport))
    (documents : Fetched (List Document)) (info : Fetched BuildInfo)
  | abandoned

/-- The value of a channel that has settled; one that closed before stays pending. -/
def Channel.settled? {α : Type} (channel : Channel (Fetched α)) : Option (Fetched α) :=
  if !channel.value.isPending || channel.closed then some channel.value else none

namespace Gathering

def advance (gathering : Gathering) (feed : Feed) : Gathering :=
  match gathering with
  | atMetrics =>
    if feed.metrics.hasNew then atReports feed.metrics.value
    else if feed.metrics.closed then abandoned
    else atMetrics
  | atReports metrics => (feed.reports.settled?.map (atDocuments metrics)).getD gathering
  | atDocuments metrics reports =>
    (feed.documents.settled?.map (atInfo metrics reports)).getD gathering
  | atInfo metrics reports documents =>
    (feed.info.settled?.map (done metrics reports documents)).getD gathering
  | done .. | abandoned => gathering

def advanceAll (gathering : Gathering) (feed : Feed) : Gathering :=
  (((gathering.advance feed).advance feed).advance feed).advance feed

def follow (gathering : Gathering) (sampling : Sampling) : List TaskStep → Gathering
  | [] => gathering
  | step :: rest =>
    let sampling := sampling.step step
    (gathering.advanceAll sampling.feed).follow sampling rest

end Gathering

namespace SourceData

def steps (data : SourceData) (nowMs : Nat) : List TaskStep :=
  [.startReports, .finishReports data.reports, .startOnce .documents,
    .finishOnce .documents data.documents, .startOnce .info, .finishOnce .info data.info,
    .startMetrics nowMs, .tick nowMs, .finishMetrics data.metrics nowMs]

def export? (data : SourceData) (description : String) (options : SamplingOptions)
    (nowMs : Nat) : Option Export :=
  match Gathering.atMetrics.follow (.new options) (data.steps nowMs) with
  | .done metrics reports documents info =>
    some ⟨description, nowMs, metrics, reports, documents, info⟩
  | _ => none

end SourceData

end ProxyMonitor
