namespace ProxyMonitor

inductive Color where
  | red
  | green
  | yellow
  | blue
  | magenta
  | cyan
  | gray
  | darkGray
  | lightBlue
  deriving DecidableEq, Repr

namespace Color

def name : Color → String
  | red => "Red"
  | green => "Green"
  | yellow => "Yellow"
  | blue => "Blue"
  | magenta => "Magenta"
  | cyan => "Cyan"
  | gray => "Gray"
  | darkGray => "DarkGray"
  | lightBlue => "LightBlue"

end Color

/-- A style leaves alone what it does not name; no colour is the one of the terminal. -/
structure Style where
  foreground : Option Color
  background : Option Color
  bold : Bool
  dim : Bool
  italic : Bool
  underlined : Bool
  deriving DecidableEq

namespace Style

def plain : Style := ⟨none, none, false, false, false, false⟩

def colored (color : Color) : Style := { plain with foreground := some color }

def withBold (style : Style) : Style := { style with bold := true }

def withDim (style : Style) : Style := { style with dim := true }

def withItalic (style : Style) : Style := { style with italic := true }

def withUnderline (style : Style) : Style := { style with underlined := true }

def patch (lower upper : Style) : Style where
  foreground := upper.foreground.or lower.foreground
  background := upper.background.or lower.background
  bold := lower.bold || upper.bold
  dim := lower.dim || upper.dim
  italic := lower.italic || upper.italic
  underlined := lower.underlined || upper.underlined

def emphasis (style : Style) : List String :=
  [("BOLD", style.bold), ("DIM", style.dim), ("ITALIC", style.italic),
    ("UNDERLINED", style.underlined)].filterMap fun (name, on) => if on then some name else none

end Style

end ProxyMonitor
