import ProxyMonitor.Decimal.Reading
import ProxyMonitor.Text

namespace ProxyMonitor

inductive LogLevel where
  | off
  | error
  | warn
  | info
  | debug
  | trace
  deriving DecidableEq, Repr

namespace LogLevel

def all : List LogLevel := [off, error, warn, info, debug, trace]

def name : LogLevel → String
  | off => "off"
  | error => "error"
  | warn => "warn"
  | info => "info"
  | debug => "debug"
  | trace => "trace"

def rank (level : LogLevel) : Nat := all.idxOf level

def read? (text : List Char) : Option LogLevel :=
  match readWord? text with
  | some rank => all[rank]?
  | none => all.find? fun level => level.name.toList == text.map Char.toLower

end LogLevel

/-- No target means all of them; within a span nothing is said about what lies outside. -/
structure LogDirective where
  target : List Char
  withinSpan : Bool
  level : LogLevel
  deriving DecidableEq

namespace LogDirective

def beginsTarget (c : Char) : Bool :=
  c.isAlphanum || 128 ≤ c.toNat || c = '-' || c = ':' || c = '_'

def levelAfter? : List Char → Option LogLevel
  | [] => some .trace
  | ['='] => some .trace
  | '=' :: text => LogLevel.read? text
  | _ => none

def read? (text : List Char) : Option LogDirective :=
  let isMark (c : Char) := c == '=' || c == '['
  let target := text.takeWhile (!isMark ·)
  match text, text.dropWhile (!isMark ·) with
  | [], _ => none
  | first :: _, rest =>
    if !beginsTarget first && first ≠ '[' then none
    else match rest with
      | [] =>
        match LogLevel.read? target with
        | some level => some ⟨[], false, level⟩
        | none => some ⟨target, false, .trace⟩
      | '[' :: span =>
        (Text.splitAt? ']' span).bind fun (_, rest) =>
          (levelAfter? rest).map fun level => ⟨target, true, level⟩
      | rest => (levelAfter? rest).map fun level => ⟨target, false, level⟩

def covers (directive : LogDirective) (target : List Char) : Bool :=
  !directive.withinSpan && directive.target.isPrefixOf target

end LogDirective

abbrev LogFilter := List LogDirective

namespace LogFilter

def default : LogFilter := [⟨[], false, .info⟩]

def read? (text : String) : Option LogFilter :=
  if text.isEmpty then some []
  else (text.toList.splitOn ',').mapM fun part => LogDirective.read? (Text.trim part)

/-- The level of the longest target that covers the given one; of equal ones the last counts. -/
def levelFor (filter : LogFilter) (target : String) : LogLevel :=
  ((filter.filter fun directive => directive.covers target.toList).foldl
    (fun best directive => if best.target.length ≤ directive.target.length then directive else best)
    ⟨[], false, .off⟩).level

def allows (filter : LogFilter) (target : String) (level : LogLevel) : Bool :=
  level.rank ≤ (filter.levelFor target).rank

/-- The filter of the environment, if it has one, else the one of the settings; a text that is no
filter is replaced by the default. -/
def choose (environment : Option String) (settings : String) : LogFilter :=
  (read? (environment.getD settings)).getD default

end LogFilter

end ProxyMonitor
