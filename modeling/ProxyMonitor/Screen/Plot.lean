import ProxyMonitor.Distribution
import ProxyMonitor.Screen.Columns
import ProxyMonitor.Screen.Picture

namespace ProxyMonitor

structure ChartFrame where
  labels : List String
  axisStyle : Style
  legend : List Span

namespace ChartFrame

def labelWidth (chart : ChartFrame) (area : Area) : Nat :=
  Nat.min ((chart.labels.map fun label => (Line.raw label).width).foldl Nat.max 0) (area.width / 3)

def plotArea (chart : ChartFrame) (area : Area) : Area :=
  let left := area.left + chart.labelWidth area
  let left := if left + 1 < area.right then left + 1 else left
  ⟨left, area.top, area.right - left, area.height⟩

def drawLabels (chart : ChartFrame) (area : Area) (picture : Picture) : Picture :=
  let plot := chart.plotArea area
  chart.labels.zipIdx.foldl (fun picture (label, place) =>
    let up := place * (plot.height - 1) / (chart.labels.length - 1)
    picture.write ⟨area.left, plot.bottom - 1 - up, plot.left - area.left - 1, 1⟩ (.raw label))
    picture

def drawAxis (chart : ChartFrame) (area : Area) (picture : Picture) : Picture :=
  let left := area.left + chart.labelWidth area
  if left + 1 < area.right then
    picture.fill ⟨left, area.top, 1, area.height⟩ "│" chart.axisStyle
  else picture

/-- The legend takes at most a quarter of the plot in either direction, or is left out. -/
def legendArea? (chart : ChartFrame) (plot : Area) : Option Area :=
  let inner := (chart.legend.map fun span => Line.width [span]).foldl Nat.max 0
  let width := inner + 2
  let height := chart.legend.length + 2
  if 0 < inner && width ≤ ColumnWidth.nearest plot.width 4 &&
      height ≤ ColumnWidth.nearest plot.height 4 then
    some ⟨plot.left, plot.top, width, height⟩
  else none

def drawLegend (chart : ChartFrame) (plot : Area) (style : Style) (picture : Picture) : Picture :=
  match chart.legendArea? plot with
  | none => picture
  | some area =>
    chart.legend.zipIdx.foldl (fun picture (span, place) =>
        picture.write ⟨area.left + 1, area.top + 1 + place, area.width - 2, 1⟩ [span])
      ((picture.patch area style).border area .plain .plain)

def draw (chart : ChartFrame) (area : Area) (legendStyle : Style) (picture : Picture) : Picture :=
  if area.isEmpty then picture
  else chart.drawLegend (chart.plotArea area) legendStyle
    (chart.drawAxis area (chart.drawLabels area picture))

end ChartFrame

structure BarPlot where
  bars : List Bar
  barWidth : Nat
  barStyle : Style
  valueStyle : Style

namespace BarPlot

def blocks : List String := [" ", "▁", "▂", "▃", "▄", "▅", "▆", "▇", "█"]

def block (eighths : Nat) : String := blocks[Nat.min eighths 8]?.getD " "

def eighths (plot : BarPlot) (height : Nat) (bar : Bar) : Nat :=
  bar.count * height * 8 / Nat.max 1 ((plot.bars.map Bar.count).foldl Nat.max 0)

def visible (plot : BarPlot) (width : Nat) : List Bar :=
  let count := plot.bars.length
  if count * plot.barWidth + (count - 1) < width then plot.bars
  else plot.bars.take ((width + 1) / (plot.barWidth + 1))

def drawBar (plot : BarPlot) (area : Area) (eighths : Nat) (picture : Picture) : Picture :=
  (List.range area.height).foldl (fun picture row =>
    picture.fill ⟨area.left, area.bottom - 1 - row, area.width, 1⟩ (block (eighths - 8 * row))
      plot.barStyle) picture

def drawLabel (plot : BarPlot) (left row : Nat) (bar : Bar) (picture : Picture) : Picture :=
  let glyphs := (Line.raw bar.label).glyphs
  picture.writeGlyphs (left + (plot.barWidth - glyphsWidth glyphs) / 2) row glyphs

/-- A count that fills the whole width needs a full block behind it; zero is not written. -/
def drawCount (plot : BarPlot) (left row : Nat) (bar : Bar) (eighths : Nat) (picture : Picture) :
    Picture :=
  let glyphs := (Line.glyphs [⟨toString bar.count, plot.valueStyle⟩])
  let width := glyphs.length
  if bar.count ≠ 0 ∧ (width < plot.barWidth ∨ (width = plot.barWidth ∧ 8 ≤ eighths)) then
    picture.writeGlyphs (left + (plot.barWidth - width) / 2) row glyphs
  else picture

def draw (plot : BarPlot) (area : Area) (picture : Picture) : Picture :=
  if area.isEmpty then picture
  else
    let labelled := 1 < area.height
    let height := if labelled then area.height - 1 else area.height
    let places := (plot.visible area.width).zipIdx.map fun (bar, place) =>
      (bar, area.left + place * (plot.barWidth + 1), plot.eighths height bar)
    let picture := places.foldl (fun picture (_, left, eighths) =>
      plot.drawBar ⟨left, area.top, plot.barWidth, height⟩ eighths picture) picture
    places.foldl (fun picture (bar, left, eighths) =>
      let picture := if labelled then plot.drawLabel left (area.bottom - 1) bar picture else picture
      plot.drawCount left (area.top + height - 1) bar eighths picture) picture

end BarPlot

end ProxyMonitor
