namespace ProxyMonitor.Target

def isUnsafe (c : Char) : Bool :=
  c.toNat ≤ 32 || 127 ≤ c.toNat || c = '"' || c = '<' || c = '>'

def escapedInPath (c : Char) : Bool := isUnsafe c || "\u0060\x7b\x7d".toList.contains c

def escapedInQuery (c : Char) : Bool := isUnsafe c || c = '\''

def hexDigits (n : Nat) : List Char :=
  [(Nat.digitChar (n / 16)).toUpper, (Nat.digitChar (n % 16)).toUpper]

def percent (c : Char) : List Char :=
  (String.singleton c).toUTF8.toList.flatMap fun byte => '%' :: hexDigits byte.toNat

def escape (isEscaped : Char → Bool) (text : List Char) : List Char :=
  text.flatMap fun c => if isEscaped c then percent c else [c]

def isHere (segment : List Char) : Bool :=
  ["." , "%2e"].contains (String.ofList (segment.map Char.toLower))

def isUp (segment : List Char) : Bool :=
  ["..", ".%2e", "%2e.", "%2e%2e"].contains (String.ofList (segment.map Char.toLower))

def segments (path : List Char) : List (List Char) := path.splitOn '/'

def resolve (done : List (List Char)) : List (List Char) → List (List Char)
  | [] => done.reverse
  | segment :: rest =>
    let done :=
      if isUp segment then done.drop 1 else if isHere segment then done else segment :: done
    if rest.isEmpty && (isUp segment || isHere segment) then ([] :: done).reverse
    else resolve done rest

def path (text : List Char) : List Char :=
  let text := text.map fun c => if c = '\\' then '/' else c
  let text := match text with
    | '/' :: rest => rest
    | text => text
  '/' :: List.intercalate ['/'] ((resolve [] (segments text)).map (escape escapedInPath))

def dropEnds (text : List Char) : List Char :=
  (text.reverse.dropWhile (·.toNat ≤ 32)).reverse

/-- Path and query of what follows the host in a url; a fragment is not sent. -/
def ofUrl (text : String) : String :=
  let text := (dropEnds text.toList).filter fun c => c ≠ '\t' ∧ c ≠ '\n' ∧ c ≠ '\r'
  let text := text.takeWhile (· ≠ '#')
  let query := match text.dropWhile (· ≠ '?') with
    | [] => []
    | mark :: query => mark :: escape escapedInQuery query
  String.ofList (path (text.takeWhile (· ≠ '?')) ++ query)

end ProxyMonitor.Target
