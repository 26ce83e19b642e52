import ProxyMonitor.Console

namespace ProxyMonitor

inductive KeyCode where
  | char (c : Char)
  | tab
  | backTab
  | escape
  | enter
  | left
  | right
  | up
  | down
  | pageUp
  | pageDown
  | other
  deriving DecidableEq

structure Key where
  code : KeyCode
  shift : Bool
  control : Bool
  alt : Bool
  deriving DecidableEq

namespace Key

def pageRows : Nat := 10

def command? (key : Key) : Option Command :=
  match key.code with
  | .char 'q' | .escape => some .quit
  | .char 'c' => if key.control then some .quit else none
  | .tab => some (if key.shift then .previousView else .nextView)
  | .backTab => some .previousView
  | .char '1' => some (.goTo .metrics)
  | .char '2' => some (.goTo .reports)
  | .char '3' => some (.goTo .moderation)
  | .char '4' => some (.goTo .info)
  | .left | .char 'h' => some .previousColumn
  | .right | .char 'l' => some .nextColumn
  | .up | .char 'k' => some (.selectPrevious 1)
  | .down | .char 'j' => some (.selectNext 1)
  | .pageUp => some (.selectPrevious pageRows)
  | .pageDown => some (.selectNext pageRows)
  | .enter | .char 's' => some .activateSort
  | .char 'r' => some .requestReports
  | .char '?' => some .showHelp
  | .char 'e' => some .exportState
  | .char _ | .other => none

end Key

inductive MouseAction where
  | pressLeft
  | scrollUp
  | scrollDown
  | other
  deriving DecidableEq

structure MouseEvent where
  action : MouseAction
  column : Nat
  row : Nat
  deriving DecidableEq

namespace MouseEvent

def tabRow : Nat := 1

def command? (event : MouseEvent) : Option Command :=
  match event.action with
  | .scrollUp => some (.selectPrevious 1)
  | .scrollDown => some (.selectNext 1)
  | .pressLeft => if event.row = tabRow then (View.tabAt? event.column).map .goTo else none
  | .other => none

end MouseEvent

namespace Console

def performAny (console : Console) (nowMs : Nat) (command : Option Command) :
    Console × Option Export :=
  match command with
  | some command => console.perform nowMs command
  | none => (console, none)

/-- While help is shown, any key closes it and does nothing else. -/
def handleKey (console : Console) (key : Key) (nowMs : Nat) : Console × Option Export :=
  if console.helpShown then ({ console with helpShown := false }, none)
  else console.performAny nowMs key.command?

def handleMouse (console : Console) (event : MouseEvent) (nowMs : Nat) : Console :=
  (console.performAny nowMs event.command?).1

end Console

end ProxyMonitor
