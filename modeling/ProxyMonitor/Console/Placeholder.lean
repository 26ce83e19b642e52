import ProxyMonitor.Screen.Picture
import ProxyMonitor.Theme

namespace ProxyMonitor

structure Placeholder where
  title : String
  message : String
  style : Style

namespace Placeholder

def draw (placeholder : Placeholder) (theme : Theme) (area : Area) (picture : Picture) : Picture :=
  ((picture.patch area placeholder.style.withItalic).panel area (" " ++ placeholder.title ++ " ")
    theme.border).paragraph area.inner (Line.ofText placeholder.message) .center

end Placeholder

end ProxyMonitor
