import ProxyMonitor.Binary64.Arithmetic
import ProxyMonitor.Decimal

namespace ProxyMonitor.Quantity

/-- The first unit that is reached divides the number; below all units it is rounded to a whole. -/
def scaled (units : List (Nat × String)) (x : Binary64) : String :=
  match units.find? fun unit => (Binary64.ofNat unit.1).le x with
  | some (unit, letter) => (x.div (.ofNat unit)).toFixed 1 ++ letter
  | none => x.toFixed 0

def count : Binary64 → String := scaled [(1000000, "M"), (1000, "K")]

def bytes : Binary64 → String := scaled [(1000000000, "G"), (1000000, "M"), (1000, "K")]

def rate (x : Binary64) : String := x.toFixed 1

end ProxyMonitor.Quantity
