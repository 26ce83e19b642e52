import ProxyMonitor.Decimal.Reading
import ProxyMonitor.Family
import ProxyMonitor.Text

namespace ProxyMonitor.Exposition

inductive Cause where
  | unterminatedLabelSet
  | invalidMetricName
  | invalidLabel (text : String)
  | missingValue
  | invalidValue (text : String)
  deriving DecidableEq, Repr

structure SampleLine where
  name : String
  labels : Labels
  value : Binary64
  deriving DecidableEq

def isMetricChar (c : Char) : Bool := c.isAlphanum || c = '_' || c = ':'

def isLabelChar (c : Char) : Bool := c.isAlphanum || c = '_'

def isMetricName : List Char → Bool
  | [] => false
  | c :: rest => isMetricChar c && !c.isDigit && rest.all isMetricChar

inductive Scan where
  | outside
  | quoted
  | escaped

/-- Splits at the first `}` outside quotes; in quotes a backslash hides the next character. -/
def splitLabelSet? : Scan → List Char → Option (List Char × List Char)
  | _, [] => none
  | .escaped, c :: rest => (splitLabelSet? .quoted rest).map (Prod.map (c :: ·) id)
  | .quoted, c :: rest =>
    let next := if c = '\\' then Scan.escaped else if c = '"' then .outside else .quoted
    (splitLabelSet? next rest).map (Prod.map (c :: ·) id)
  | .outside, c :: rest =>
    if c = '}' then some ([], rest)
    else
      (splitLabelSet? (if c = '"' then .quoted else .outside) rest).map (Prod.map (c :: ·) id)

/-- Decodes up to the closing quote; an unknown escape stands for itself. -/
def readQuoted? : List Char → Option (List Char × List Char)
  | [] => none
  | '"' :: rest => some ([], rest)
  | '\\' :: c :: rest =>
    let decoded := if c = 'n' then ['\n'] else if c = '\\' ∨ c = '"' then [c] else ['\\', c]
    (readQuoted? rest).map (Prod.map (decoded ++ ·) id)
  | '\\' :: [] => none
  | c :: rest => (readQuoted? rest).map (Prod.map (c :: ·) id)

theorem readQuoted_length_lt {cs value rest : List Char} (h : readQuoted? cs = some (value, rest)) :
    rest.length < cs.length := by
  fun_induction readQuoted? cs generalizing value rest <;> simp_all
  case case3 ih =>
    obtain ⟨_, read, rfl⟩ := h
    have shorter := ih read
    omega
  case case5 ih =>
    obtain ⟨_, read, rfl⟩ := h
    have shorter := ih read
    omega

structure LabelPair where
  name : String
  value : String

def readPair (cs : List Char) : Except Cause (LabelPair × List Char) :=
  let name := cs.takeWhile isLabelChar
  if name = [] ∨ (name.head?.any Char.isDigit) then .error (.invalidLabel (String.ofList cs))
  else
    let fault := .error (.invalidLabel (String.ofList name))
    match Text.trimStart (cs.dropWhile isLabelChar) with
    | '=' :: afterEquals =>
      match Text.trimStart afterEquals with
      | '"' :: quoted =>
        match readQuoted? quoted with
        | some (value, rest) => .ok (⟨String.ofList name, String.ofList value⟩, rest)
        | none => fault
      | _ => fault
    | _ => fault

theorem readPair_length_lt {cs rest : List Char} {pair : LabelPair}
    (h : readPair cs = .ok (pair, rest)) : rest.length < cs.length := by
  simp only [readPair] at h
  split at h
  · simp at h
  · split at h
    next afterEquals equals =>
      split at h
      next quoted quote =>
        split at h
        next value after read =>
          simp only [Except.ok.injEq, Prod.mk.injEq] at h
          obtain ⟨-, rfl⟩ := h
          have l₁ := readQuoted_length_lt read
          have l₂ := Text.trimStart_length_le afterEquals
          have l₃ := Text.trimStart_length_le (cs.dropWhile isLabelChar)
          have l₄ := (List.dropWhile_sublist isLabelChar (l := cs)).length_le
          rw [quote, List.length_cons] at l₂
          rw [equals, List.length_cons] at l₃
          omega
        next => simp at h
      next => simp at h
    next => simp at h

def readSeparator (cs : List Char) : Except Cause (List Char) :=
  match Text.trimStart cs with
  | [] => .ok []
  | ',' :: rest => .ok (Text.trimStart rest)
  | rest => .error (.invalidLabel (String.ofList rest))

theorem readSeparator_length_le {cs rest : List Char} (h : readSeparator cs = .ok rest) :
    rest.length ≤ cs.length := by
  have l₁ := Text.trimStart_length_le cs
  simp only [readSeparator] at h
  split at h
  · cases h; simp
  · rename_i after comma
    cases h
    have l₂ := Text.trimStart_length_le after
    rw [comma, List.length_cons] at l₁
    omega
  · simp at h

def readPairs (labels : Labels) (cs : List Char) : Except Cause Labels :=
  if cs = [] then .ok labels
  else match _pairRead : readPair cs with
    | .error cause => .error cause
    | .ok (pair, rest) =>
      if labels.contains pair.name then
        .error (.invalidLabel ("duplicate " ++ pair.name))
      else match _separatorRead : readSeparator rest with
        | .error cause => .error cause
        | .ok next => readPairs (labels.insert pair.name pair.value) next
termination_by cs.length
decreasing_by
  exact Nat.lt_of_le_of_lt (readSeparator_length_le _separatorRead) (readPair_length_lt _pairRead)

def readLabels (cs : List Char) : Except Cause Labels := readPairs .empty (Text.trimStart cs)

def readValue (token : List Char) : Except Cause Binary64 :=
  match Binary64.read? token with
  | some value => .ok value
  | none => .error (.invalidValue (String.ofList token))

/-- The value and an optional integer timestamp, which is checked and dropped. -/
def readTail (cs : List Char) : Except Cause Binary64 :=
  match Text.words cs with
  | [] => .error .missingValue
  | token :: rest => do
    let value ← readValue token
    match rest with
    | [] => .ok value
    | time :: extra =>
      if readInteger? time = none then .error (.invalidValue (String.ofList time))
      else match extra with
        | [] => .ok value
        | token :: _ => .error (.invalidValue (String.ofList token))

def readSampleLine (line : List Char) : Except Cause SampleLine := do
  let name := line.takeWhile isMetricChar
  if !isMetricName name then
    .error .invalidMetricName
  else
    match line.dropWhile isMetricChar with
    | '{' :: rest =>
      match splitLabelSet? .outside rest with
      | none => .error .unterminatedLabelSet
      | some (inside, tail) =>
        let labels ← readLabels inside
        let value ← readTail tail
        .ok ⟨String.ofList name, labels, value⟩
    | [] => .error .missingValue
    | c :: tail =>
      if Text.isBlank c then
        let value ← readTail tail
        .ok ⟨String.ofList name, .empty, value⟩
      else .error .invalidMetricName

end ProxyMonitor.Exposition
