import ProxyMonitor.Binary64.Arithmetic

/-! Sliding windows: the most recent points of a series, primed with placeholders. -/

namespace ProxyMonitor

structure TimePoint where
  timeMs : Nat
  value : Binary64
  deriving DecidableEq

namespace TimePoint

def placeholder : TimePoint := ⟨0, .zero⟩

def isPlaceholder (point : TimePoint) : Bool := point.timeMs == 0

end TimePoint

structure Window where
  capacity : Nat
  points : List TimePoint
  deriving DecidableEq

namespace Window

def defaultCapacity : Nat := 60

/-- A full window of placeholders; a capacity of zero is raised to one. -/
def new (capacity : Nat) : Window :=
  let capacity := Nat.max capacity 1
  ⟨capacity, List.replicate capacity .placeholder⟩

def push (window : Window) (point : TimePoint) : Window :=
  { window with points := window.points.drop 1 ++ [point] }

def latest? (window : Window) : Option TimePoint := window.points.getLast?

def recorded (window : Window) : List TimePoint := window.points.filter fun p => !p.isPlaceholder

/-- The least and the greatest number in the window, NaN left out. -/
def bounds (window : Window) : Binary64 × Binary64 :=
  window.points.foldl (fun bounds point => (bounds.1.min point.value, bounds.2.max point.value))
    (.infinite false, .infinite true)

def chart (window : Window) : List (Nat × Binary64) :=
  window.points.zipIdx.map fun (point, place) => (place, point.value)

end Window

end ProxyMonitor
