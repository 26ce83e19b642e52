namespace ProxyMonitor.Word

def count : Nat := Nat.pow 2 64

def half : Nat := Nat.pow 2 63

def greatest : Nat := count - 1

def toSigned (word : Nat) : Int := if word < half then word else (word : Int) - count

def isSigned (n : Int) : Bool := decide (-(half : Int) ≤ n) && decide (n < half)

end ProxyMonitor.Word
