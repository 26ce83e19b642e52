import ProxyMonitor.Screen.Style
import ProxyMonitor.Screen.Width

/-! Pictures made of cells: every place has a symbol and a style. -/

namespace ProxyMonitor

structure Cell where
  symbol : String
  style : Style
  deriving DecidableEq

namespace Cell

def blank : Cell := ⟨" ", .plain⟩

end Cell

structure Area where
  left : Nat
  top : Nat
  width : Nat
  height : Nat
  deriving DecidableEq, Repr

namespace Area

def right (area : Area) : Nat := area.left + area.width

def bottom (area : Area) : Nat := area.top + area.height

def isEmpty (area : Area) : Bool := area.width == 0 || area.height == 0

def contains (area : Area) (column row : Nat) : Bool :=
  area.left ≤ column && column < area.right && area.top ≤ row && row < area.bottom

def inner (area : Area) : Area :=
  ⟨Nat.min (area.left + 1) area.right, Nat.min (area.top + 1) area.bottom, area.width - 2,
    area.height - 2⟩

end Area

structure Span where
  text : String
  style : Style

def Span.raw (text : String) : Span := ⟨text, .plain⟩

abbrev Line := List Span

structure Glyph where
  symbol : String
  style : Style
  width : Nat

namespace Line

def raw (text : String) : Line := [.raw text]

def ofText (text : String) : List Line :=
  let lines := text.splitOn "\n"
  let lines := if lines.getLast? = some "" then lines.dropLast else lines
  lines.map raw

/-- Adds a character to glyphs in reverse order: control characters are left out, combining ones
join the glyph before them. -/
def addChar (style : Style) (glyphs : List Glyph) (c : Char) : List Glyph :=
  if Width.isControl c then glyphs
  else match Width.ofChar c, glyphs with
    | 0, [] => []
    | 0, glyph :: rest => { glyph with symbol := glyph.symbol.push c } :: rest
    | width, glyphs => ⟨String.singleton c, style, width⟩ :: glyphs

def glyphs (line : Line) : List Glyph :=
  (line.foldl (fun glyphs span => span.text.toList.foldl (addChar span.style) glyphs) []).reverse

end Line

def glyphsWidth (glyphs : List Glyph) : Nat :=
  glyphs.foldl (fun total glyph => total + glyph.width) 0

def Line.width (line : Line) : Nat := glyphsWidth line.glyphs

def fitting : (width : Nat) → List Glyph → List Glyph
  | _, [] => []
  | width, glyph :: rest =>
    if glyph.width ≤ width then glyph :: fitting (width - glyph.width) rest else []

def Glyph.marks (glyph : Glyph) : List (Option Glyph) :=
  some glyph :: List.replicate (glyph.width - 1) none

structure Picture where
  cell : (column row : Nat) → Cell

namespace Picture

def blank : Picture := ⟨fun _ _ => .blank⟩

def clear (picture : Picture) (area : Area) : Picture :=
  ⟨fun column row => if area.contains column row then .blank else picture.cell column row⟩

def patch (picture : Picture) (area : Area) (style : Style) : Picture :=
  ⟨fun column row =>
    let cell := picture.cell column row
    if area.contains column row then { cell with style := cell.style.patch style } else cell⟩

def fill (picture : Picture) (area : Area) (symbol : String) (style : Style) : Picture :=
  ⟨fun column row =>
    let cell := picture.cell column row
    if area.contains column row then ⟨symbol, cell.style.patch style⟩ else cell⟩

/-- Puts glyphs from a place on; `covered` is what becomes of the columns that a wide glyph takes
beside its first one. -/
def putGlyphs (picture : Picture) (covered : Cell → Cell) (column row : Nat)
    (glyphs : List Glyph) : Picture :=
  let marks := (glyphs.flatMap Glyph.marks).toArray
  ⟨fun c r =>
    let cell := picture.cell c r
    if r = row && column ≤ c then
      match marks[c - column]? with
      | some (some glyph) => ⟨glyph.symbol, cell.style.patch glyph.style⟩
      | some none => covered cell
      | none => cell
    else cell⟩

def writeGlyphs (picture : Picture) (column row : Nat) (glyphs : List Glyph) : Picture :=
  picture.putGlyphs (fun _ => .blank) column row glyphs

def write (picture : Picture) (area : Area) (line : Line) : Picture :=
  if area.isEmpty then picture
  else picture.writeGlyphs area.left area.top (fitting area.width line.glyphs)

inductive Alignment where
  | left
  | center
  deriving DecidableEq

def indent (alignment : Alignment) (area : Area) (glyphs : List Glyph) : Nat :=
  match alignment with
  | .left => 0
  | .center => area.width / 2 - glyphsWidth glyphs / 2

def paragraph (picture : Picture) (area : Area) (lines : List Line)
    (alignment : Alignment := .left) : Picture :=
  (lines.take area.height).zipIdx.foldl (fun picture (line, place) =>
    let glyphs := fitting area.width line.glyphs
    picture.putGlyphs id (area.left + indent alignment area glyphs) (area.top + place) glyphs)
    picture

structure Corners where
  topLeft : String
  topRight : String
  bottomLeft : String
  bottomRight : String

def Corners.rounded : Corners := ⟨"╭", "╮", "╰", "╯"⟩

def Corners.plain : Corners := ⟨"┌", "┐", "└", "┘"⟩

/-- The border symbol at a place of an area; where sides meet, a corner. -/
def borderSymbol? (area : Area) (corners : Corners) (column row : Nat) : Option String :=
  if !area.contains column row then none
  else
    let first := column = area.left
    let last := column + 1 = area.right
    let top := row = area.top
    let bottom := row + 1 = area.bottom
    if first && top then some corners.topLeft
    else if first && bottom then some corners.bottomLeft
    else if last && top then some corners.topRight
    else if last && bottom then some corners.bottomRight
    else if top || bottom then some "─"
    else if first || last then some "│"
    else none

def border (picture : Picture) (area : Area) (corners : Corners) (style : Style) : Picture :=
  ⟨fun column row =>
    let cell := picture.cell column row
    match borderSymbol? area corners column row with
    | some symbol => ⟨symbol, cell.style.patch style⟩
    | none => cell⟩

def panel (picture : Picture) (area : Area) (title : String) (color : Color) : Picture :=
  if area.isEmpty then picture
  else (picture.border area .rounded (.colored color)).write
    ⟨area.left + 1, area.top, area.width - 2, 1⟩ (.raw title)

def rows (picture : Picture) (width height : Nat) : List (List Cell) :=
  (List.range height).map fun row => (List.range width).map fun column => picture.cell column row

end Picture

end ProxyMonitor
