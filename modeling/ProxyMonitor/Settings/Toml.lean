import ProxyMonitor.Json.Reader
import ProxyMonitor.Settings.Value

namespace ProxyMonitor.Toml

def isGap (c : Char) : Bool := c = ' ' || c = '\t'

def skipGap (cs : List Char) : List Char := cs.dropWhile isGap

def isControl (c : Char) : Bool := (c.toNat < 32 && c ≠ '\t') || c.toNat = 127

def skipLines (inComment : Bool) : List Char → Option (List Char)
  | [] => some []
  | '\n' :: rest => skipLines false rest
  | '\r' :: '\n' :: rest => skipLines false rest
  | c :: rest =>
    if inComment then if isControl c then none else skipLines true rest
    else if isGap c then skipLines false rest
    else if c = '#' then skipLines true rest
    else some (c :: rest)

def endLine (inComment : Bool) : List Char → Option (List Char)
  | [] => some []
  | '\n' :: rest => some rest
  | '\r' :: '\n' :: rest => some rest
  | c :: rest =>
    if inComment then if isControl c then none else endLine true rest
    else if isGap c then endLine false rest
    else if c = '#' then endLine true rest
    else none

def escape? (c : Char) : Option Char :=
  if c = '"' ∨ c = '\\' then some c
  else if c = 'b' then some '\x08'
  else if c = 't' then some '\t'
  else if c = 'n' then some '\n'
  else if c = 'f' then some '\x0c'
  else if c = 'r' then some '\r'
  else none

def scalar? (digits : List Char) : Option Char :=
  (Json.hexWord? digits).bind fun n => if n.isValidChar then some (Char.ofNat n) else none

def readBasic? : List Char → Option (List Char × List Char)
  | [] => none
  | '"' :: rest => some ([], rest)
  | '\\' :: 'u' :: a :: b :: c :: d :: rest =>
    (scalar? [a, b, c, d]).bind fun c => (readBasic? rest).map (Prod.map (c :: ·) id)
  | '\\' :: 'U' :: a :: b :: c :: d :: e :: f :: g :: h :: rest =>
    (scalar? [a, b, c, d, e, f, g, h]).bind fun c => (readBasic? rest).map (Prod.map (c :: ·) id)
  | '\\' :: c :: rest =>
    (escape? c).bind fun c => (readBasic? rest).map (Prod.map (c :: ·) id)
  | c :: rest => if isControl c then none else (readBasic? rest).map (Prod.map (c :: ·) id)

def readLiteral? : List Char → Option (List Char × List Char)
  | [] => none
  | '\'' :: rest => some ([], rest)
  | c :: rest => if isControl c then none else (readLiteral? rest).map (Prod.map (c :: ·) id)

def endsLine (cs : List Char) : Bool :=
  match skipGap cs with
  | '\n' :: _ => true
  | '\r' :: '\n' :: _ => true
  | _ => false

/-- A text between triple double quotes. A backslash at the end of a line hides the blanks and line
ends that follow; up to two quotes may stand before the closing ones. -/
def readBasicLines? (hidden : Bool) : List Char → Option (List Char × List Char)
  | [] => none
  | '"' :: '"' :: '"' :: '"' :: '"' :: rest => some (['"', '"'], rest)
  | '"' :: '"' :: '"' :: '"' :: rest => some (['"'], rest)
  | '"' :: '"' :: '"' :: rest => some ([], rest)
  | '\n' :: rest =>
    if hidden then readBasicLines? true rest
    else (readBasicLines? false rest).map (Prod.map ('\n' :: ·) id)
  | '\r' :: '\n' :: rest =>
    if hidden then readBasicLines? true rest
    else (readBasicLines? false rest).map (Prod.map ('\n' :: ·) id)
  | '\\' :: 'u' :: a :: b :: c :: d :: rest =>
    (scalar? [a, b, c, d]).bind fun c =>
      (readBasicLines? false rest).map (Prod.map (c :: ·) id)
  | '\\' :: 'U' :: a :: b :: c :: d :: e :: f :: g :: h :: rest =>
    (scalar? [a, b, c, d, e, f, g, h]).bind fun c =>
      (readBasicLines? false rest).map (Prod.map (c :: ·) id)
  | '\\' :: c :: rest =>
    if endsLine (c :: rest) then readBasicLines? true (c :: rest)
    else (escape? c).bind fun c => (readBasicLines? false rest).map (Prod.map (c :: ·) id)
  | c :: rest =>
    if isControl c then none
    else if hidden && isGap c then readBasicLines? true rest
    else (readBasicLines? false rest).map (Prod.map (c :: ·) id)

def readLiteralLines? : List Char → Option (List Char × List Char)
  | [] => none
  | '\'' :: '\'' :: '\'' :: '\'' :: '\'' :: rest => some (['\'', '\''], rest)
  | '\'' :: '\'' :: '\'' :: '\'' :: rest => some (['\''], rest)
  | '\'' :: '\'' :: '\'' :: rest => some ([], rest)
  | '\n' :: rest => (readLiteralLines? rest).map (Prod.map ('\n' :: ·) id)
  | '\r' :: '\n' :: rest => (readLiteralLines? rest).map (Prod.map ('\n' :: ·) id)
  | c :: rest =>
    if isControl c then none else (readLiteralLines? rest).map (Prod.map (c :: ·) id)

def dropFirstLineEnd : List Char → List Char
  | '\n' :: rest => rest
  | '\r' :: '\n' :: rest => rest
  | cs => cs

def readText? : List Char → Option (List Char × List Char)
  | '"' :: '"' :: '"' :: rest => readBasicLines? false (dropFirstLineEnd rest)
  | '\'' :: '\'' :: '\'' :: rest => readLiteralLines? (dropFirstLineEnd rest)
  | '"' :: rest => readBasic? rest
  | '\'' :: rest => readLiteral? rest
  | _ => none

def digitRun? (isDigit : Char → Bool) (text : List Char) : Option (List Char) :=
  let runs := text.splitOn '_'
  if runs.all fun run => !run.isEmpty && run.all isDigit then some runs.flatten else none

def radixDigits? (radix : Char) : Option (Nat × (Char → Bool)) :=
  if radix = 'x' then some (16, fun c => (Json.hexValue? c).isSome)
  else if radix = 'o' then some (8, fun c => '0' ≤ c && c ≤ '7')
  else if radix = 'b' then some (2, fun c => c = '0' || c = '1')
  else none

def isBareWhole (digits : List Char) : Bool := digits.length = 1 || digits.head? ≠ some '0'

def inRange? (n : Int) : Option Int := if Word.isSigned n then some n else none

def readInteger? : List Char → Option Int
  | '0' :: radix :: digits => do
    let (base, isDigit) ← radixDigits? radix
    let digits ← digitRun? isDigit digits
    inRange? (digits.foldl (fun n c => base * n + (Json.hexValue? c).getD 0) 0 : Nat)
  | text => do
    let (negative, digits) := Decimal.splitSign text
    let digits ← digitRun? Char.isDigit digits
    if isBareWhole digits then inRange? (Binary64.signed negative (Decimal.digitsValue digits))
    else none

def splitAtClass (isMark : Char → Bool) (text : List Char) : List Char × Option (List Char) :=
  (text.takeWhile (!isMark ·), match text.dropWhile (!isMark ·) with
    | [] => none
    | _ :: rest => some rest)

def readExponent? (text : List Char) : Option (List Char) :=
  match text with
  | '-' :: digits => (digitRun? Char.isDigit digits).map ('-' :: ·)
  | '+' :: digits => digitRun? Char.isDigit digits
  | digits => digitRun? Char.isDigit digits

def readFloat? (text : List Char) : Option Binary64 := do
  let (negative, body) := Decimal.splitSign text
  if body = "inf".toList then return .infinite negative
  else if body = "nan".toList then return .nan negative
  else
    let (mantissa, exponent) := splitAtClass (fun c => c = 'e' || c = 'E') body
    let (whole, fraction) := splitAtClass (· = '.') mantissa
    if fraction.isNone && exponent.isNone then none
    else
      let whole ← digitRun? Char.isDigit whole
      let fraction ← match fraction with
        | some digits => digitRun? Char.isDigit digits
        | none => some []
      let exponent ← match exponent with
        | some digits => readExponent? digits
        | none => some ['0']
      if !isBareWhole whole then none
      else
        let x ← (Decimal.read? (whole ++ '.' :: fraction ++ 'e' :: exponent)).map
          (Decimal.nearest negative)
        if x = .infinite false then none else some x

def twoDigits? (low high : Nat) : List Char → Option (Nat × List Char)
  | a :: b :: rest =>
    if a.isDigit && b.isDigit then
      let n := Decimal.digitsValue [a, b]
      if low ≤ n ∧ n ≤ high then some (n, rest) else none
    else none
  | _ => none

def daysInMonth (year month : Nat) : Nat :=
  if month = 2 then
    if year % 4 = 0 ∧ (year % 100 ≠ 0 ∨ year % 400 = 0) then 29 else 28
  else if [4, 6, 9, 11].contains month then 30
  else 31

def dateEnd? : List Char → Option (List Char)
  | a :: b :: c :: d :: '-' :: rest => do
    if [a, b, c, d].all Char.isDigit then
      match ← twoDigits? 1 12 rest with
      | (month, '-' :: rest) =>
        let (_, rest) ← twoDigits? 1 (daysInMonth (Decimal.digitsValue [a, b, c, d]) month) rest
        some rest
      | _ => none
    else none
  | _ => none

def readTime? (text : List Char) : Option (List Char × List Char) := do
  match ← twoDigits? 0 23 text with
  | (_, ':' :: rest) =>
    match ← twoDigits? 0 59 rest with
    | (_, ':' :: rest) =>
      let (_, rest) ← twoDigits? 0 60 rest
      match rest with
      | '.' :: rest =>
        let digits := rest.takeWhile Char.isDigit
        if digits = [] then none
        else
          let kept := ((digits.take 9).reverse.dropWhile (· = '0')).reverse
          some (text.take 8 ++ (if kept = [] then [] else '.' :: kept),
            rest.dropWhile Char.isDigit)
      | rest => some (text.take 8, rest)
    | _ => none
  | _ => none

def readOffset? : List Char → Option (List Char)
  | [] => some []
  | ['Z'] => some ['Z']
  | ['z'] => some ['Z']
  | sign :: rest => do
    if sign = '+' ∨ sign = '-' then
      match ← twoDigits? 0 23 rest with
      | (_, ':' :: minutes) =>
        match ← twoDigits? 0 59 minutes with
        | (_, []) => some (sign :: rest)
        | _ => none
      | _ => none
    else none

def readMoment? (text : List Char) : Option (List Char) :=
  match dateEnd? text with
  | some [] => some text
  | some (mark :: rest) => do
    if mark = 'T' ∨ mark = 't' ∨ mark = ' ' then
      let (time, rest) ← readTime? rest
      let offset ← readOffset? rest
      some (text.take 10 ++ 'T' :: time ++ offset)
    else none
  | none => (readTime? text).bind fun (time, rest) => if rest = [] then some time else none

def isDelimiter (c : Char) : Bool :=
  isGap c || c = '\n' || c = '\r' || c = '#' || c = ',' || c = ']' || c = '\x7d'

/-- The characters of a bare value; a blank may part a date from a time. -/
def bareLength (cs : List Char) : Nat :=
  let first := (cs.takeWhile (!isDelimiter ·)).length
  match dateEnd? (cs.take first), cs.drop first with
  | some [], ' ' :: a :: b :: ':' :: _ =>
    if a.isDigit && b.isDigit then
      first + 1 + ((cs.drop (first + 1)).takeWhile (!isDelimiter ·)).length
    else first
  | _, _ => first

def readBare? (text : List Char) : Option SettingValue :=
  if text = "true".toList then some (.bool true)
  else if text = "false".toList then some (.bool false)
  else ((readInteger? text).map .integer) <|> ((readFloat? text).map .float) <|>
    (readMoment? text).map fun moment => .text (String.ofList moment)

def isKeyChar (c : Char) : Bool := c.isAlphanum || c = '_' || c = '-'

def readSimpleKey? (cs : List Char) : Option (String × List Char) :=
  match cs with
  | '"' :: rest => (readBasic? rest).map (Prod.map String.ofList id)
  | '\'' :: rest => (readLiteral? rest).map (Prod.map String.ofList id)
  | cs =>
    let key := cs.takeWhile isKeyChar
    if key = [] then none else some (String.ofList key, cs.dropWhile isKeyChar)

def readKey? : (fuel : Nat) → List Char → Option (List String × List Char)
  | 0, _ => none
  | fuel + 1, cs => do
    let (part, rest) ← readSimpleKey? (skipGap cs)
    match skipGap rest with
    | '.' :: rest =>
      let (parts, rest) ← readKey? fuel rest
      return (part :: parts, rest)
    | rest => return ([part], rest)

/-- How a table came to be, which decides how it may grow. -/
inductive Origin where
  | implied
  | header
  | dotted
  deriving DecidableEq

inductive Node where
  | value (value : SettingValue)
  | table (origin : Origin) (members : List (String × Node))
  | tables (items : List (List (String × Node)))

abbrev Members := List (String × Node)

def replace (members : Members) (key : String) (node : Node) : Members :=
  members.map fun member => if member.1 = key then (key, node) else member

/-- Adds a value under a dotted key, which may only pass through tables made by such keys. -/
def addValue? (value : SettingValue) : List String → Members → Option Members
  | [], _ => none
  | [key], members =>
    match members.lookup key with
    | none => some (members ++ [(key, .value value)])
    | some _ => none
  | key :: path, members =>
    match members.lookup key with
    | none => (addValue? value path []).map fun inner => members ++ [(key, .table .dotted inner)]
    | some (.table origin inner) =>
      if origin = .header then none
      else (addValue? value path inner).map fun inner =>
        replace members key (.table origin inner)
    | some _ => none

def changeLast? (change : Members → Option Members) : List Members → Option (List Members)
  | [] => none
  | [members] => (change members).map ([·])
  | members :: rest => (changeLast? change rest).map (members :: ·)

/-- Changes the table that a header names; of repeated tables the last one. -/
def changeAt? (change : Members → Option Members) : List String → Members → Option Members
  | [], members => change members
  | key :: path, members =>
    match members.lookup key with
    | some (.table origin inner) =>
      (changeAt? change path inner).map fun inner => replace members key (.table origin inner)
    | some (.tables items) =>
      (changeLast? (changeAt? change path) items).map fun items =>
        replace members key (.tables items)
    | _ => none

def openTable? (repeated : Bool) : List String → Members → Option Members
  | [], _ => none
  | [key], members =>
    match members.lookup key with
    | none => some (members ++ [(key, if repeated then .tables [[]] else .table .header [])])
    | some (.table .implied inner) =>
      if repeated then none else some (replace members key (.table .header inner))
    | some (.tables items) =>
      if repeated then some (replace members key (.tables (items ++ [[]]))) else none
    | some _ => none
  | key :: path, members =>
    match members.lookup key with
    | none =>
      (openTable? repeated path []).map fun inner => members ++ [(key, .table .implied inner)]
    | some (.table origin inner) =>
      (openTable? repeated path inner).map fun inner => replace members key (.table origin inner)
    | some (.tables items) =>
      (changeLast? (openTable? repeated path) items).map fun items =>
        replace members key (.tables items)
    | some _ => none

mutual

def Node.toValue : Node → SettingValue
  | .value value => value
  | .table _ members => .table (membersToValues members)
  | .tables items => .list (itemsToValues items)

def membersToValues : Members → SettingLayer
  | [] => []
  | (key, node) :: rest => (key, node.toValue) :: membersToValues rest

def itemsToValues : List Members → List SettingValue
  | [] => []
  | members :: rest => .table (membersToValues members) :: itemsToValues rest

end

mutual

def readValue? : (fuel : Nat) → List Char → Option (SettingValue × List Char)
  | 0, _ => none
  | fuel + 1, cs =>
    match cs with
    | '[' :: rest => (readItems? fuel rest).map (Prod.map .list id)
    | '{' :: rest =>
      match skipGap rest with
      | '}' :: rest => some (.table [], rest)
      | rest => (readInline? fuel [] rest).map
          (Prod.map (fun members => .table (membersToValues members)) id)
    | '"' :: _ => (readText? cs).map (Prod.map (fun text => .text (String.ofList text)) id)
    | '\'' :: _ => (readText? cs).map (Prod.map (fun text => .text (String.ofList text)) id)
    | _ =>
      let length := bareLength cs
      (readBare? (cs.take length)).map fun value => (value, cs.drop length)

def readItems? : (fuel : Nat) → List Char → Option (List SettingValue × List Char)
  | 0, _ => none
  | fuel + 1, cs => do
    match ← skipLines false cs with
    | ']' :: rest => return ([], rest)
    | cs =>
      let (item, rest) ← readValue? fuel cs
      match ← skipLines false rest with
      | ',' :: rest =>
        let (items, rest) ← readItems? fuel rest
        return (item :: items, rest)
      | ']' :: rest => return ([item], rest)
      | _ => none

def readInline? : (fuel : Nat) → Members → List Char → Option (Members × List Char)
  | 0, _, _ => none
  | fuel + 1, members, cs => do
    let (path, rest) ← readKey? cs.length cs
    match rest with
    | '=' :: rest =>
      let (value, rest) ← readValue? fuel (skipGap rest)
      let members ← addValue? value path members
      match skipGap rest with
      | ',' :: rest => readInline? fuel members rest
      | '}' :: rest => return (members, rest)
      | _ => none
    | _ => none

end

def readDocument? : (fuel : Nat) → (current : List String) → Members → List Char → Option Members
  | 0, _, _, _ => none
  | fuel + 1, current, members, cs => do
    match ← skipLines false cs with
    | [] => return members
    | '[' :: '[' :: rest =>
      let (path, rest) ← readKey? rest.length rest
      match rest with
      | ']' :: ']' :: rest =>
        readDocument? fuel path (← openTable? true path members) (← endLine false rest)
      | _ => none
    | '[' :: rest =>
      let (path, rest) ← readKey? rest.length rest
      match rest with
      | ']' :: rest =>
        readDocument? fuel path (← openTable? false path members) (← endLine false rest)
      | _ => none
    | cs =>
      let (path, rest) ← readKey? cs.length cs
      match rest with
      | '=' :: rest =>
        let (value, rest) ← readValue? rest.length (skipGap rest)
        let members ← changeAt? (addValue? value path) current members
        readDocument? fuel current members (← endLine false rest)
      | _ => none

def read? (text : String) : Option SettingLayer :=
  let cs := match text.toList with
    | '\ufeff' :: rest => rest
    | cs => cs
  (readDocument? (cs.length + 1) [] [] cs).map membersToValues

end ProxyMonitor.Toml
