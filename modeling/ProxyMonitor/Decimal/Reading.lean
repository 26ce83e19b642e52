import ProxyMonitor.Decimal

namespace ProxyMonitor

namespace Decimal

def digitsValue (digits : List Char) : Nat := Nat.ofDigitChars 10 digits 0

def splitSign : List Char → Bool × List Char
  | '-' :: rest => (true, rest)
  | '+' :: rest => (false, rest)
  | rest => (false, rest)

def readExponent? : List Char → Option Int
  | [] => some 0
  | c :: rest =>
    let (negative, digits) := splitSign rest
    if (c = 'e' ∨ c = 'E') ∧ digits ≠ [] ∧ digits.all Char.isDigit then
      some (Binary64.signed negative (digitsValue digits))
    else none

/-- Digits with at most one point among or beside them, then an optional exponent. -/
def read? (text : List Char) : Option Decimal :=
  let whole := text.takeWhile Char.isDigit
  let rest := text.dropWhile Char.isDigit
  let (fraction, rest) := match rest with
    | '.' :: rest => (rest.takeWhile Char.isDigit, rest.dropWhile Char.isDigit)
    | rest => ([], rest)
  if whole = [] ∧ fraction = [] then none
  else (readExponent? rest).map fun e => ⟨digitsValue (whole ++ fraction), e - fraction.length⟩

end Decimal

namespace Binary64

def read? (text : List Char) : Option Binary64 :=
  let (negative, rest) := Decimal.splitSign text
  let word := String.ofList (rest.map Char.toLower)
  if word = "inf" ∨ word = "infinity" then some (.infinite negative)
  else if word = "nan" then some (.nan negative)
  else (Decimal.read? rest).map (Decimal.nearest negative)

end Binary64

def readInteger? (text : List Char) : Option Int :=
  let (negative, digits) := Decimal.splitSign text
  if digits ≠ [] ∧ digits.all Char.isDigit then
    let n := Binary64.signed negative (Decimal.digitsValue digits)
    if Word.isSigned n then some n else none
  else none

def readWord? (text : List Char) : Option Nat :=
  let digits := match text with
    | '+' :: digits => digits
    | digits => digits
  if digits ≠ [] ∧ digits.all Char.isDigit then
    let n := Decimal.digitsValue digits
    if n < Word.count then some n else none
  else none

end ProxyMonitor
