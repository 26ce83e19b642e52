import ProxyMonitor.Binary64
import ProxyMonitor.Word

/-! Arithmetic on doubles: each operation is exact on units and rounded once. -/

namespace ProxyMonitor.Binary64

/-- A sum that is exactly zero is the negative zero only when both summands are. -/
def ofSignedUnits (zeroNegative : Bool) (n : Int) (den : Nat) : Binary64 :=
  if n = 0 then ofRank zeroNegative 0 else ofUnits (decide (n < 0)) n.natAbs den

def add : Binary64 → Binary64 → Binary64
  | .nan s, _ => .nan s
  | _, .nan s => .nan s
  | .infinite s, .infinite t => if s = t then .infinite s else .nan false
  | .infinite s, .finite _ _ => .infinite s
  | .finite _ _, .infinite t => .infinite t
  | .finite s a, .finite t b =>
    ofSignedUnits (s && t) (signed s (units a) + signed t (units b)) 1

def sub (x y : Binary64) : Binary64 :=
  if y.isNaN then y else x.add y.neg

def mul : Binary64 → Binary64 → Binary64
  | .nan s, _ => .nan s
  | _, .nan s => .nan s
  | .infinite s, .infinite t => .infinite (s != t)
  | .infinite s, .finite t b => if b.val = 0 then .nan false else .infinite (s != t)
  | .finite s a, .infinite t => if a.val = 0 then .nan false else .infinite (s != t)
  | .finite s a, .finite t b => ofUnits (s != t) (units a * units b) unitScale

def div : Binary64 → Binary64 → Binary64
  | .nan s, _ => .nan s
  | _, .nan s => .nan s
  | .infinite _, .infinite _ => .nan false
  | .infinite s, .finite t _ => .infinite (s != t)
  | .finite s _, .infinite t => ofRank (s != t) 0
  | .finite s a, .finite t b =>
    if b.val = 0 then
      if a.val = 0 then .nan false else .infinite (s != t)
    else ofUnits (s != t) (units a * unitScale) (units b)

def ofNat (n : Nat) : Binary64 := ofUnits false (n * unitScale) 1

def ofInt (n : Int) : Binary64 :=
  if n < 0 then ofUnits true (n.natAbs * unitScale) 1 else ofNat n.natAbs

/-- Drops the fraction and clamps to a 64 bit unsigned word; NaN gives zero. -/
def toWord : Binary64 → Nat
  | .finite false rank => Nat.min (units rank / unitScale) Word.greatest
  | .infinite false => Word.greatest
  | _ => 0

def isWhole : Binary64 → Bool
  | .finite _ rank => units rank % unitScale == 0
  | _ => false

def roundHalfAway? : Binary64 → Option Int
  | .finite negative rank => some (signed negative ((2 * units rank + unitScale) / (2 * unitScale)))
  | _ => none

end ProxyMonitor.Binary64
