import ProxyMonitor.Exposition.Draft

/-! Reading an exposition: malformed lines are skipped and recorded, an open label set is fatal. -/

namespace ProxyMonitor.Exposition

structure Problem where
  line : Nat
  cause : Cause
  deriving DecidableEq, Repr

namespace Cause

def isFatal : Cause → Bool
  | .unterminatedLabelSet => true
  | _ => false

def message : Cause → String
  | .unterminatedLabelSet => "unterminated label set"
  | .invalidMetricName => "invalid metric name"
  | .invalidLabel text => "invalid label: " ++ text
  | .missingValue => "missing sample value"
  | .invalidValue text => "invalid sample value: " ++ text

end Cause

def Problem.message (problem : Problem) : String :=
  "line " ++ toString problem.line ++ ": " ++ problem.cause.message

structure Reading where
  families : Except Problem (List Family)
  skipped : List Problem

def readLine (b : Builder) (line : List Char) : Except Cause Builder :=
  match Text.trim line with
  | [] => .ok b
  | '#' :: text => .ok (b.comment text)
  | line => do b.sample (← readSampleLine line)

def readLines (next : Nat) (b : Builder) : List (List Char) → Reading
  | [] => ⟨.ok b.finish, []⟩
  | line :: rest =>
    match readLine b line with
    | .ok b => readLines (next + 1) b rest
    | .error cause =>
      let problem := ⟨next, cause⟩
      if cause.isFatal then ⟨.error problem, []⟩
      else
        let reading := readLines (next + 1) b rest
        { reading with skipped := problem :: reading.skipped }

def read (text : String) : Reading := readLines 1 .empty (Text.lines text.toList)

/-- A reader remembers the lines that its last reading skipped. -/
structure Reader where
  skipped : List Problem

namespace Reader

def new : Reader := ⟨[]⟩

def read (_ : Reader) (text : String) : Except Problem (List Family) × Reader :=
  let reading := Exposition.read text
  (reading.families, ⟨reading.skipped⟩)

end Reader

end ProxyMonitor.Exposition
