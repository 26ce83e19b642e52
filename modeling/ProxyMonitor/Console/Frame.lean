import ProxyMonitor.Console
import ProxyMonitor.Console.Quantity
import ProxyMonitor.Screen.Picture

namespace ProxyMonitor.Console

def bold (text : String) : Span := ⟨text, Style.plain.withBold⟩

def availabilityText : Availability → String
  | .pending => "waiting"
  | .available => "up"
  | .unavailable status => "down (" ++ toString status ++ ")"

def requestRateText (history : History) : String :=
  match history.requests.latest?.filter fun point => !point.isPlaceholder with
  | some point => Quantity.rate point.value ++ "/s"
  | none => "-"

def headerLine (console : Console) : Line :=
  let metrics := console.metrics
  let style := console.theme.availability metrics.availability
  [⟨" ● ", style⟩, bold "IMGPROXY DOCTOR ", .raw "│ ", .raw console.source, .raw " │ ",
    ⟨availabilityText metrics.availability, style⟩] ++
    if metrics.sequence = 0 then []
    else [.raw " │ ", bold (Quantity.count metrics.totalRequests), .raw " requests │ ",
      .raw (requestRateText metrics.history)]

def drawHeader (console : Console) (area : Area) (picture : Picture) : Picture :=
  picture.paragraph area [console.headerLine]

def tabGlyphs (console : Console) : List View → List Glyph
  | [] => []
  | view :: rest =>
    let style := if view = console.view then console.theme.activeTab else .plain
    let tab := Line.glyphs [.raw " ", ⟨view.tabTitle, style⟩, .raw " "]
    if rest.isEmpty then tab else tab ++ Line.glyphs [.raw "|"] ++ console.tabGlyphs rest

def drawTabs (console : Console) (area : Area) (picture : Picture) : Picture :=
  if area.isEmpty then picture
  else (picture.patch area console.theme.inactiveTab).writeGlyphs area.left area.top
    (fitting area.width (console.tabGlyphs View.all))

def controls : View → String
  | .metrics | .info => "Tab:switch e:export ?:help q:quit"
  | .reports => "←→:column Enter:sort r:refresh Tab:switch ?:help q:quit"
  | .moderation => "←→:column Enter:sort Tab:switch ?:help q:quit"

def sortText (console : Console) : String :=
  let text (sort : SortState) := "sort " ++ sort.field ++ sort.direction.arrow ++ " | "
  match console.view with
  | .reports => text console.reports.sort
  | .moderation => text console.documents.sort
  | .metrics | .info => ""

/-- Seconds since an update; one in the future is taken as just made. -/
def ageText (updatedMs nowMs : Nat) : String :=
  ((Binary64.ofNat (nowMs - updatedMs)).div (.ofNat 1000)).toFixed 1

def progressText (metrics : MetricsState) (nowMs : Nat) : String :=
  let error := metrics.lastError.map fun text => "Error: " ++ text ++ " | "
  match metrics.lastUpdatedMs, error with
  | some updatedMs, error =>
    error.getD "" ++ "Updated " ++ ageText updatedMs nowMs ++ "s ago | "
  | none, some error => error
  | none, none => "Loading... | "

def statusLine (console : Console) (nowMs : Nat) : String × Style :=
  match console.status? nowMs with
  | some text => (" " ++ text ++ " ", .colored console.theme.highlight)
  | none =>
    (" " ++ progressText console.metrics nowMs ++ console.sortText ++ controls console.view,
      Style.plain.withDim)

def drawStatus (console : Console) (nowMs : Nat) (area : Area) (picture : Picture) : Picture :=
  let (text, style) := console.statusLine nowMs
  (picture.patch area style).paragraph area (Line.ofText text)

def helpLines (theme : Theme) : List Line :=
  [[⟨"Keyboard Shortcuts", theme.header⟩], [], [bold " Navigation"],
    .raw "  Tab/S-Tab   Switch views", .raw "  1-4         Jump to view",
    .raw "  ↑/↓ j/k     Navigate rows", .raw "  PgUp/PgDn   Jump 10 rows", [],
    [bold " Reports & Moderation"], .raw "  ←/→ h/l     Choose column",
    .raw "  Enter/s     Sort by column", .raw "  r           Refresh reports", [],
    [bold " General"], .raw "  e           Export to JSON", .raw "  q/Esc       Quit", [],
    [⟨"Press any key to close", Style.plain.withDim⟩]]

def helpArea (area : Area) : Area :=
  let width := Nat.min 42 (area.width - 4)
  let height := Nat.min 22 (area.height - 2)
  ⟨area.left + (area.width - width) / 2, area.top + (area.height - height) / 2, width, height⟩

def drawHelp (console : Console) (area : Area) (picture : Picture) : Picture :=
  let area := helpArea area
  ((picture.clear area).panel area " Help " console.theme.highlight).paragraph area.inner
    (helpLines console.theme)

end ProxyMonitor.Console
