import ProxyMonitor.Rpc
import ProxyMonitor.Source.Data

namespace ProxyMonitor

/-- A saved list of reports, bare or in its envelope; every part has to be readable. -/
def readReportFile (content : String) : Except FetchError (List RawReport) :=
  match (Json.read? content).filter Json.isReadable with
  | none => .error (.decode Json.refusal)
  | some json =>
    match Json.listOf? RawReport.ofJson? json with
    | some reports => .ok reports
    | none =>
      match Rpc.Envelope.ofJson? (Json.listOf? RawReport.ofJson?) json with
      | some envelope => envelope.result? .describeReports
      | none => .error (.decode Json.refusal)

structure FileSource where
  metricsPath : String
  reportsPath : Option String

namespace FileSource

def description (source : FileSource) : String := "file: " ++ source.metricsPath

/-- What the files hold; without a report file there are no reports. Files hold no documents and no
build information. -/
def fetch (source : FileSource) (content : String → Except FileFault String) : SourceData where
  metrics := (content source.metricsPath).mapError .ofFile
  reports := match source.reportsPath with
    | none => .ok []
    | some path => (content path).mapError .ofFile >>= readReportFile
  documents := .ok []
  info := .error (.transport "build info is not recorded in files")

end FileSource

end ProxyMonitor
