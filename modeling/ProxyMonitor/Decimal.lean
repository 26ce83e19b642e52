import ProxyMonitor.Binary64.Arithmetic

/-! Decimals: the double nearest to one, the shortest one that reads back, fixed places. -/

namespace ProxyMonitor

/-- The number `digits * 10 ^ exponent`. -/
structure Decimal where
  digits : Nat
  exponent : Int
  deriving DecidableEq, Repr

namespace Decimal

open Binary64

def powerOfTen (exponent : Nat) : Nat := Nat.pow 10 exponent

/-- No double reaches `10 ^ highest`. -/
def highest : Int := 310

/-- Every number below `10 ^ lowest` is nearer to zero than to the least positive double. -/
def lowest : Int := -330

/-- The double nearest to a decimal, ties to even. The first two tests keep the powers small. -/
def nearest (negative : Bool) (d : Decimal) : Binary64 :=
  let top := d.exponent + (Nat.toDigits 10 d.digits).length
  if d.digits = 0 ∨ top < lowest then ofRank negative 0
  else if highest < top then .infinite negative
  else if d.exponent < 0 then
    ofUnits negative (d.digits * unitScale) (powerOfTen d.exponent.natAbs)
  else ofUnits negative (d.digits * powerOfTen d.exponent.natAbs * unitScale) 1

def exact (rank : Nat) : Decimal := ⟨units rank * Nat.pow 5 1074, -1074⟩

inductive Tie where
  | up
  | toEven
  deriving DecidableEq

/-- The value in steps of `10 ^ grid`, as a fraction. -/
def steps (rank : Nat) (grid : Int) : Nat × Nat :=
  if grid < 0 then (units rank * powerOfTen grid.natAbs, unitScale)
  else (units rank, unitScale * powerOfTen grid.natAbs)

def neighbours (tie : Tie) (rank : Nat) (grid : Int) : List Nat :=
  let (num, den) := steps rank grid
  let low := num / den
  let twice := 2 * (num % den)
  let lowFirst := decide (twice < den) ||
    (decide (twice = den) && decide (tie = .toEven) && decide (low % 2 = 0))
  if lowFirst then [low, low + 1] else [low + 1, low]

def onGrid (grid : Int) (digits : Nat) : Decimal :=
  if digits = 10 then ⟨1, grid + 1⟩ else ⟨digits, grid⟩

/-- The `e` with `10 ^ e ≤ value < 10 ^ (e + 1)`, from the binary logarithm. -/
def magnitude (rank : Nat) : Int :=
  let e := ((Nat.log2 (units rank) : Int) - 1074) * 30103 / 100000
  let (num, den) := steps rank (e + 1)
  if den ≤ num then e + 1 else e

def readsBack (rank : Nat) (d : Decimal) : Bool :=
  nearest false d == ofRank false rank

/-- The decimal of fewest digits that reads back, the nearest of these. -/
def shortest (tie : Tie) (rank : Nat) : Decimal :=
  let top := magnitude rank
  ((List.range 17).findSome? fun places =>
    let grid := top - (places : Nat)
    ((neighbours tie rank grid).map (onGrid grid)).find? (readsBack rank)).getD (exact rank)

def pointed (places : Nat) (digits : List Char) : List Char :=
  if places = 0 then digits
  else
    let padded := List.replicate (places + 1 - digits.length) '0' ++ digits
    padded.take (padded.length - places) ++ '.' :: padded.drop (padded.length - places)

def positional (d : Decimal) : List Char :=
  let digits := Nat.toDigits 10 d.digits
  if d.exponent < 0 then pointed d.exponent.natAbs digits
  else if d.digits = 0 then digits
  else digits ++ List.replicate d.exponent.natAbs '0'

end Decimal

namespace Binary64

def signText (negative : Bool) : List Char := if negative then ['-'] else []

def text : Binary64 → List Char
  | .nan _ => ['N', 'a', 'N']
  | .infinite negative => signText negative ++ ['i', 'n', 'f']
  | .finite negative rank =>
    signText negative ++
      (if rank.val = 0 then ['0'] else (Decimal.shortest .up rank).positional)

instance : ToString Binary64 := ⟨fun x => String.ofList x.text⟩

/-- The exact value rounded to `places` decimal places, a half to even. -/
def fixed (places : Nat) : Binary64 → List Char
  | .nan _ => ['N', 'a', 'N']
  | .infinite negative => signText negative ++ ['i', 'n', 'f']
  | .finite negative rank =>
    signText negative ++
      Decimal.pointed places
        (Nat.toDigits 10 (roundHalfEven (units rank * Decimal.powerOfTen places) unitScale))

def toFixed (places : Nat) (x : Binary64) : String := String.ofList (x.fixed places)

end Binary64

end ProxyMonitor
