/-! Double precision numbers as exact data: sign and rank, rounding to nearest, two orders. -/

namespace ProxyMonitor

namespace Binary64

def rankStep : Nat := Nat.pow 2 52

def rankCount : Nat := 2047 * rankStep

end Binary64

/-- Finite numbers of one sign are counted from zero in increasing order; `rank` is that count.
Neighbouring numbers have neighbouring ranks, so order and equality are those of the ranks. -/
inductive Binary64 where
  | finite (negative : Bool) (rank : Fin Binary64.rankCount)
  | infinite (negative : Bool)
  | nan (negative : Bool)
  deriving DecidableEq, Repr

namespace Binary64

def zero : Binary64 := .finite false ⟨0, by decide⟩

def negativeZero : Binary64 := .finite true ⟨0, by decide⟩

instance : Inhabited Binary64 := ⟨zero⟩

def units (rank : Nat) : Nat :=
  if rank < 2 * rankStep then rank
  else (rankStep + rank % rankStep) <<< (rank / rankStep - 1)

def unitScale : Nat := Nat.pow 2 1074

def roundHalfEven (num den : Nat) : Nat :=
  let whole := num / den
  let twice := 2 * (num % den)
  if twice < den ∨ twice = den ∧ whole % 2 = 0 then whole else whole + 1

/-- The rank nearest to `num / den` units. Between two powers of two the ranks are evenly spaced,
`2 ^ step` units apart. -/
def nearestRank (num den : Nat) : Nat :=
  let step := Nat.log2 (num / den) - 52
  step * rankStep + roundHalfEven num (den <<< step)

def ofRank (negative : Bool) (rank : Nat) : Binary64 :=
  if h : rank < rankCount then .finite negative ⟨rank, h⟩ else .infinite negative

def ofUnits (negative : Bool) (num den : Nat) : Binary64 :=
  ofRank negative (nearestRank num den)

def isNaN : Binary64 → Bool
  | .nan _ => true
  | _ => false

def isInfinite : Binary64 → Bool
  | .infinite _ => true
  | _ => false

def neg : Binary64 → Binary64
  | .finite negative rank => .finite (!negative) rank
  | .infinite negative => .infinite (!negative)
  | .nan negative => .nan (!negative)

def abs : Binary64 → Binary64
  | .finite _ rank => .finite false rank
  | .infinite _ => .infinite false
  | .nan _ => .nan false

def signed (negative : Bool) (n : Nat) : Int :=
  if negative then -(n : Int) else n

/-- Position on the number line; both zeros share one and NaN has none. -/
def position? : Binary64 → Option Int
  | .finite negative rank => some (signed negative rank)
  | .infinite negative => some (signed negative rankCount)
  | .nan _ => none

def lt (x y : Binary64) : Bool :=
  match x.position?, y.position? with
  | some a, some b => decide (a < b)
  | _, _ => false

def le (x y : Binary64) : Bool :=
  match x.position?, y.position? with
  | some a, some b => decide (a ≤ b)
  | _, _ => false

def same (x y : Binary64) : Bool :=
  match x.position?, y.position? with
  | some a, some b => decide (a = b)
  | _, _ => false

/-- Position in the order of all data: negative NaN first, the negative zero right below the
positive one, positive NaN last. -/
def totalKey : Binary64 → Int
  | .finite false rank => rank
  | .finite true rank => -(rank : Int) - 1
  | .infinite false => rankCount
  | .infinite true => -(rankCount : Int) - 1
  | .nan false => rankCount + 1
  | .nan true => -(rankCount : Int) - 2

/-- The greater number; NaN gives way to the other operand. -/
def max (x y : Binary64) : Binary64 :=
  if x.isNaN then y else if y.isNaN then x else if x.lt y then y else x

def min (x y : Binary64) : Binary64 :=
  if x.isNaN then y else if y.isNaN then x else if y.lt x then y else x

end Binary64

end ProxyMonitor
