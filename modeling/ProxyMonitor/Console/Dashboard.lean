import ProxyMonitor.Console
import ProxyMonitor.Console.Placeholder
import ProxyMonitor.Console.Quantity
import ProxyMonitor.Screen.Plot

namespace ProxyMonitor.Console

def blocksPerRow : Nat := 5

def blockRowHeight : Nat := 3

def blockLine (block : StatBlock) : Line :=
  if block.isAvailable then
    ⟨block.value, Style.plain.withBold⟩ ::
      (block.units.map fun units => Span.raw (" " ++ units)).toList
  else [⟨block.value, Style.plain.withDim⟩]

def drawBlock (theme : Theme) (block : StatBlock) (area : Area) (picture : Picture) : Picture :=
  (picture.panel area (" " ++ block.title ++ " ") theme.border).paragraph area.inner
    [blockLine block]

def drawBlockRow (theme : Theme) (blocks : List StatBlock) (area : Area) (picture : Picture) :
    Picture :=
  ((ColumnWidth.divideEvenly area.width blocksPerRow).zip blocks).foldl
    (fun picture ((place, width), block) =>
      drawBlock theme block ⟨area.left + place, area.top, width, area.height⟩ picture) picture

/-- Two rows of blocks; the second has what the first leaves of the height. -/
def drawBlocks (theme : Theme) (overview : Overview) (area : Area) (picture : Picture) : Picture :=
  let height := Nat.min blockRowHeight area.height
  let below := Nat.min blockRowHeight (area.height - height)
  drawBlockRow theme ((overview.blocks.drop blocksPerRow).take blocksPerRow)
    ⟨area.left, area.top + height, area.width, below⟩
    (drawBlockRow theme (overview.blocks.take blocksPerRow) { area with height } picture)

def axisEnd (windows : List Window) : Binary64 :=
  let highest := (windows.map fun window => window.bounds.2).foldl Binary64.max .zero
  (highest.mul ((Binary64.ofNat 115).div (.ofNat 100))).max (.ofNat 1)

def drawChart (theme : Theme) (title : String) (windows : List Window)
    (legend : List (String × Color)) (label : Binary64 → String) (area : Area)
    (picture : Picture) : Picture :=
  let top := axisEnd windows
  let chart : ChartFrame :=
    { labels := ["0", label (top.div (.ofNat 2)), label top]
      axisStyle := .colored theme.border
      legend := legend.map fun (name, color) => ⟨name, .colored color⟩ }
  chart.draw area.inner (.colored theme.border)
    (picture.panel area (" " ++ title ++ " ") theme.border)

def drawCharts (theme : Theme) (history : History) (area : Area) (picture : Picture) : Picture :=
  match (ColumnWidth.divideEvenly area.width 3).map fun (place, width) =>
      (⟨area.left + place, area.top, width, area.height⟩ : Area) with
  | [first, second, third] =>
    drawChart theme "Traffic (bytes/s)" [history.fetched, history.served]
      [("fetched", theme.fetched), ("served", theme.requests)] Quantity.bytes third
      (drawChart theme Series.residentMemory.title [history.memory] [("RSS", theme.memory)]
        Quantity.bytes second
        (drawChart theme Series.requestRate.title [history.requests]
          [(Series.requestRate.title, theme.requests)] Quantity.rate first picture))
  | _ => picture

/-- Bars share the width, but are neither narrower than three columns nor wider than nine. -/
def barWidth (area : Area) (count : Nat) : Nat :=
  Nat.min 9 (Nat.max 3 ((area.width - 2) / Nat.max 1 count - 1))

def drawResponseTimes (theme : Theme) (bars : List Bar) (area : Area) (picture : Picture) :
    Picture :=
  let title := " Response Time (ms) "
  if bars.isEmpty then
    ((picture.patch area Style.plain.withDim).panel area title theme.border).paragraph area.inner
      [.raw "No response-time histogram reported"]
  else
    let plot : BarPlot := ⟨bars, barWidth area bars.length, .colored theme.highlight, theme.header⟩
    plot.draw area.inner (picture.panel area title theme.border)

def metricsPlaceholder? (theme : Theme) (metrics : MetricsState) : Option Placeholder :=
  match metrics.availability with
  | .unavailable status => some ⟨"Metrics unavailable", "Metrics endpoint unavailable (status " ++
      toString status ++ "). Retrying every poll.", .colored theme.critical⟩
  | _ =>
    if metrics.families.isEmpty then
      some ⟨"Metrics", match metrics.lastError with
        | some text => "Unable to read metrics: " ++ text
        | none => "Waiting for the first poll...", .colored theme.warning⟩
    else none

/-- Heights of blocks, charts and response times: the charts have what the others leave, and six
rows before any other has one. -/
def dashboardHeights (height : Nat) : Nat × Nat × Nat :=
  if 21 ≤ height then (6, height - 15, 9)
  else
    let middle := Nat.min 6 height
    let top := Nat.min 6 (height - middle)
    (top, middle, height - middle - top)

def drawMetrics (console : Console) (nowMs : Nat) (area : Area) (picture : Picture) : Picture :=
  let theme := console.theme
  match metricsPlaceholder? theme console.metrics with
  | some placeholder => placeholder.draw theme area picture
  | none =>
    let overview := console.metrics.overview nowMs
    let (top, middle, bottom) := dashboardHeights area.height
    drawResponseTimes theme overview.responseTimes
      ⟨area.left, area.top + top + middle, area.width, bottom⟩
      (drawCharts theme console.metrics.history ⟨area.left, area.top + top, area.width, middle⟩
        (drawBlocks theme overview { area with height := top } picture))

end ProxyMonitor.Console
