namespace ProxyMonitor

inductive View where
  | metrics
  | reports
  | moderation
  | info
  deriving DecidableEq, Repr

namespace View

def all : List View := [metrics, reports, moderation, info]

def label : View → String
  | metrics => "Metrics"
  | reports => "Reports"
  | moderation => "Moderation"
  | info => "Info"

def index : View → Nat
  | metrics => 0
  | reports => 1
  | moderation => 2
  | info => 3

def next : View → View
  | metrics => reports
  | reports => moderation
  | moderation => info
  | info => metrics

def previous : View → View
  | metrics => info
  | reports => metrics
  | moderation => reports
  | info => moderation

def tabTitle (view : View) : String := " " ++ toString (view.index + 1) ++ ":" ++ view.label ++ " "

/-- Tabs begin at `start`; each has its title and a blank at both sides, and ends in a divider. -/
def tabFrom? (column : Nat) : (start : Nat) → List View → Option View
  | _, [] => none
  | start, view :: rest =>
    let stop := start + view.tabTitle.length + 2
    if column < stop then some view
    else if column = stop then none
    else tabFrom? column (stop + 1) rest

def tabAt? (column : Nat) : Option View := tabFrom? column 0 all

end View

end ProxyMonitor
