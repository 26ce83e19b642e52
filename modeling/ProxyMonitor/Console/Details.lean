import ProxyMonitor.Console
import ProxyMonitor.Screen.Picture

namespace ProxyMonitor.Console

def detailName (name : String) : Span :=
  ⟨String.ofList (("  " ++ name).toList ++ List.replicate (18 - name.length) ' '),
    Style.plain.withBold⟩

def detail (name value : String) : Line := [detailName name, .raw value]

def versions : Fetched BuildInfo → String × String
  | .ready info => (info.packageVersion, info.gitVersion)
  | .pending => ("Loading...", "Loading...")
  | .failed text => ("Unavailable: " ++ text, "-")

def endpointText : Availability → String
  | .pending => "waiting for first poll"
  | .available => "available"
  | .unavailable status => "unavailable (status " ++ toString status ++ ")"

def detailLines (console : Console) : List Line :=
  let metrics := console.metrics
  let (package, git) := versions console.info
  [[], detail "Package version" package, detail "Git version" git, [],
    detail "Source" console.source, detail "Metrics endpoint" (endpointText metrics.availability),
    detail "Polls" (toString metrics.sequence),
    detail "Skipped lines" (toString metrics.skippedLines), detail "Gateway" console.gateway] ++
    (metrics.lastError.map fun text =>
      [detailName "Last error", ⟨text, Style.colored console.theme.critical⟩]).toList

def drawInfo (console : Console) (area : Area) (picture : Picture) : Picture :=
  (picture.panel area " Info " console.theme.border).paragraph area.inner console.detailLines

end ProxyMonitor.Console
