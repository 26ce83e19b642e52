import ProxyMonitor.Json
import ProxyMonitor.Decimal.Reading

namespace ProxyMonitor.Json

def isSpace (c : Char) : Bool := c = ' ' || c = '\t' || c = '\n' || c = '\r'

def skipSpace (cs : List Char) : List Char := cs.dropWhile isSpace

/-- A character of a quoted text, or one of the sixteen bit words of an escape. -/
inductive TextUnit where
  | plain (c : Char)
  | word (n : Nat)

def hexValue? (c : Char) : Option Nat :=
  if '0' ≤ c ∧ c ≤ '9' then some (c.toNat - '0'.toNat)
  else if 'a' ≤ c ∧ c ≤ 'f' then some (c.toNat - 'a'.toNat + 10)
  else if 'A' ≤ c ∧ c ≤ 'F' then some (c.toNat - 'A'.toNat + 10)
  else none

def hexWord? (digits : List Char) : Option Nat :=
  (digits.mapM hexValue?).map fun values => values.foldl (fun n d => 16 * n + d) 0

def escaped? (c : Char) : Option Char :=
  if c = '"' ∨ c = '\\' ∨ c = '/' then some c
  else if c = 'b' then some '\x08'
  else if c = 'f' then some '\x0c'
  else if c = 'n' then some '\n'
  else if c = 'r' then some '\r'
  else if c = 't' then some '\t'
  else none

def readUnits : List Char → Option (List TextUnit × List Char)
  | [] => none
  | '"' :: rest => some ([], rest)
  | '\\' :: 'u' :: a :: b :: c :: d :: rest =>
    match hexWord? [a, b, c, d] with
    | some n => (readUnits rest).map (Prod.map (.word n :: ·) id)
    | none => none
  | '\\' :: c :: rest =>
    match escaped? c with
    | some c => (readUnits rest).map (Prod.map (.plain c :: ·) id)
    | none => none
  | c :: rest =>
    if c.toNat < 32 then none else (readUnits rest).map (Prod.map (.plain c :: ·) id)

def joinUnits? : List TextUnit → Option (List Char)
  | [] => some []
  | .plain c :: rest => (joinUnits? rest).map (c :: ·)
  | .word high :: .word low :: rest =>
    if 0xD800 ≤ high ∧ high < 0xDC00 then
      if 0xDC00 ≤ low ∧ low < 0xE000 then
        (joinUnits? rest).map
          (Char.ofNat (0x10000 + (high - 0xD800) * 0x400 + (low - 0xDC00)) :: ·)
      else none
    else if 0xDC00 ≤ high ∧ high < 0xE000 then none
    else (joinUnits? (.word low :: rest)).map (Char.ofNat high :: ·)
  | .word n :: rest =>
    if 0xD800 ≤ n ∧ n < 0xE000 then none else (joinUnits? rest).map (Char.ofNat n :: ·)

structure NumberText where
  negative : Bool
  whole : List Char
  fraction : Option (List Char)
  exponent : Option Int

def readSignedDigits? (cs : List Char) : Option (Int × List Char) :=
  let (negative, cs) := Decimal.splitSign cs
  let digits := cs.takeWhile Char.isDigit
  if digits = [] then none
  else some (Binary64.signed negative (Decimal.digitsValue digits), cs.dropWhile Char.isDigit)

def readFraction? : List Char → Option (Option (List Char) × List Char)
  | '.' :: rest =>
    let digits := rest.takeWhile Char.isDigit
    if digits = [] then none else some (some digits, rest.dropWhile Char.isDigit)
  | rest => some (none, rest)

def readPower? : List Char → Option (Option Int × List Char)
  | [] => some (none, [])
  | c :: rest =>
    if c = 'e' ∨ c = 'E' then (readSignedDigits? rest).map (Prod.map some id)
    else some (none, c :: rest)

def readNumberText? (cs : List Char) : Option (NumberText × List Char) := do
  let (negative, cs) := match cs with
    | '-' :: rest => (true, rest)
    | _ => (false, cs)
  let whole := cs.takeWhile Char.isDigit
  if whole = [] ∨ (whole.head? = some '0' ∧ whole.length ≠ 1) then none
  else
    let (fraction, cs) ← readFraction? (cs.dropWhile Char.isDigit)
    let (exponent, cs) ← readPower? cs
    return (⟨negative, whole, fraction, exponent⟩, cs)

def absorb (n : Nat) : List Char → Nat × Nat
  | [] => (n, 0)
  | c :: rest =>
    let next := 10 * n + (c.toNat - '0'.toNat)
    if next ≤ Word.greatest then absorb next rest else (n, rest.length + 1)

/-- Scales by a power of ten in double arithmetic, at most 308 places at a time. -/
def scale (x : Binary64) (exponent : Int) : Nat → Option Binary64
  | 0 => some x
  | fuel + 1 =>
    let power (n : Nat) := Decimal.nearest false ⟨1, n⟩
    if exponent.natAbs ≤ 308 then
      if 0 ≤ exponent then
        let scaled := x.mul (power exponent.natAbs)
        if scaled.isInfinite then none else some scaled
      else some (x.div (power exponent.natAbs))
    else if x.same .zero then some x
    else if 0 ≤ exponent then none
    else scale (x.div (power 308)) (exponent + 308) fuel

namespace NumberText

def double? (text : NumberText) : Option Binary64 :=
  let (significand, wholeLeft) := absorb 0 text.whole
  let fraction := text.fraction.getD []
  let (significand, fractionLeft) := absorb significand fraction
  let exponent := text.exponent.getD 0 + wholeLeft - (fraction.length - fractionLeft : Nat)
  let scaled :=
    if exponent < -700 then some .zero else scale (Binary64.ofNat significand) exponent 4
  scaled.map fun x => if text.negative then x.neg else x

/-- A text without fraction and exponent that fits 64 bits is an integer, all others are doubles. -/
def value? (text : NumberText) : Option JsonNumber :=
  let n := Decimal.digitsValue text.whole
  if text.fraction = none ∧ text.exponent = none ∧ !text.negative ∧ n ≤ Word.greatest then
    some (.integer n)
  else if text.fraction = none ∧ text.exponent = none ∧ text.negative ∧ n ≠ 0 ∧ n ≤ Word.half then
    some (.integer (-(n : Int)))
  else text.double?.map .double

end NumberText

def depthLimit : Nat := 127

def nested (depth : Nat) (json : Json) : Json :=
  if depth < depthLimit then json else .unreadable

def ofMembers? (members : List (Option String × Json)) : Json :=
  match members.mapM (fun member => member.1.map (·, member.2)) with
  | some members => .object members
  | none => .unreadable

def readString? (cs : List Char) : Option (Option String × List Char) :=
  (readUnits cs).map (Prod.map (fun units => (joinUnits? units).map String.ofList) id)

mutual

def readValue : (fuel depth : Nat) → List Char → Option (Json × List Char)
  | 0, _, _ => none
  | fuel + 1, depth, cs =>
    match skipSpace cs with
    | 'n' :: 'u' :: 'l' :: 'l' :: rest => some (.null, rest)
    | 't' :: 'r' :: 'u' :: 'e' :: rest => some (.bool true, rest)
    | 'f' :: 'a' :: 'l' :: 's' :: 'e' :: rest => some (.bool false, rest)
    | '"' :: rest =>
      (readString? rest).map (Prod.map (fun text => (text.map Json.string).getD .unreadable) id)
    | '[' :: rest =>
      match skipSpace rest with
      | ']' :: rest => some (nested depth (.array []), rest)
      | rest => (readItems fuel (depth + 1) rest).map
          (Prod.map (fun items => nested depth (.array items)) id)
    | '{' :: rest =>
      match skipSpace rest with
      | '}' :: rest => some (nested depth (.object []), rest)
      | rest => (readMembers fuel (depth + 1) rest).map
          (Prod.map (fun members => nested depth (ofMembers? members)) id)
    | cs =>
      (readNumberText? cs).map
        (Prod.map (fun text => (text.value?.map Json.number).getD .unreadable) id)

def readItems : (fuel depth : Nat) → List Char → Option (List Json × List Char)
  | 0, _, _ => none
  | fuel + 1, depth, cs => do
    let (item, rest) ← readValue fuel depth cs
    match skipSpace rest with
    | ']' :: rest => return ([item], rest)
    | ',' :: rest =>
      let (items, rest) ← readItems fuel depth rest
      return (item :: items, rest)
    | _ => none

def readMembers : (fuel depth : Nat) → List Char →
    Option (List (Option String × Json) × List Char)
  | 0, _, _ => none
  | fuel + 1, depth, cs => do
    match skipSpace cs with
    | '"' :: rest =>
      let (name, rest) ← readString? rest
      match skipSpace rest with
      | ':' :: rest =>
        let (value, rest) ← readValue fuel depth rest
        match skipSpace rest with
        | '}' :: rest => return ([(name, value)], rest)
        | ',' :: rest =>
          let (members, rest) ← readMembers fuel depth rest
          return ((name, value) :: members, rest)
        | _ => none
      | _ => none
    | _ => none

end

def read? (text : String) : Option Json :=
  let cs := text.toList
  match readValue (2 * cs.length + 1) 0 cs with
  | some (json, rest) => if skipSpace rest = [] then some json else none
  | none => none

/-- Stands where a reader gives its own account of a text that it refuses. -/
def refusal : String := "*"

end ProxyMonitor.Json
