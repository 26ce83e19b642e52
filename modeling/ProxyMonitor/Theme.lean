import ProxyMonitor.Document
import ProxyMonitor.Sampler
import ProxyMonitor.Screen.Style

namespace ProxyMonitor

structure Theme where
  highlight : Color
  warning : Color
  critical : Color
  healthy : Color
  border : Color
  requests : Color
  memory : Color
  fetched : Color
  header : Style
  selected : Style
  activeTab : Style
  inactiveTab : Style
  deriving DecidableEq

namespace Theme

def dark : Theme where
  highlight := .cyan
  warning := .yellow
  critical := .red
  healthy := .green
  border := .gray
  requests := .cyan
  memory := .magenta
  fetched := .yellow
  header := (Style.colored .cyan).withBold
  selected := { Style.plain with background := some .darkGray, bold := true }
  activeTab := (Style.colored .cyan).withBold
  inactiveTab := .colored .gray

def light : Theme where
  highlight := .blue
  warning := .yellow
  critical := .red
  healthy := .green
  border := .darkGray
  requests := .blue
  memory := .magenta
  fetched := .red
  header := (Style.colored .blue).withBold
  selected := { Style.plain with background := some .lightBlue, bold := true }
  activeTab := (Style.colored .blue).withBold
  inactiveTab := .colored .darkGray

def availability (theme : Theme) : Availability → Style
  | .available => .colored theme.healthy
  | .pending => .colored theme.warning
  | .unavailable _ => (Style.colored theme.critical).withBold

def document (theme : Theme) : DocumentStatus → Style
  | .blocked => .colored theme.critical
  | .allowed => .colored theme.healthy
  | .neverSeen => Style.plain.withDim

end Theme

end ProxyMonitor
