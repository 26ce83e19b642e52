import ProxyMonitor.Json

namespace ProxyMonitor.Json

def hexDigit (n : Nat) : Char := Nat.digitChar n

def escapeChar (c : Char) : String :=
  if c = '"' then "\\\""
  else if c = '\\' then "\\\\"
  else if c = '\x08' then "\\b"
  else if c = '\x0c' then "\\f"
  else if c = '\n' then "\\n"
  else if c = '\r' then "\\r"
  else if c = '\t' then "\\t"
  else if c.toNat < 32 then
    "\\u00" ++ String.ofList [hexDigit (c.toNat / 16), hexDigit (c.toNat % 16)]
  else String.singleton c

def quote (text : String) : String :=
  "\"" ++ text.toList.foldl (fun out c => out ++ escapeChar c) "" ++ "\""

def exponentText (n : Int) : String := (if n < 0 then "e" else "e+") ++ toString n

/-- Shortest digits with a point from `1e-5` up to below `1e16`, else with an exponent. -/
def doubleText (negative : Bool) (rank : Nat) : String :=
  if rank = 0 then if negative then "-0.0" else "0.0"
  else
    let d := Decimal.shortest .toEven rank
    let digits := Nat.toDigits 10 d.digits
    let point := d.exponent + digits.length
    let body :=
      if 0 ≤ d.exponent ∧ point ≤ 16 then d.positional ++ ['.', '0']
      else if -5 < point ∧ point ≤ 16 then d.positional
      else
        let fraction := if digits.length = 1 then [] else '.' :: digits.tail
        digits.take 1 ++ fraction ++ (exponentText (point - 1)).toList
    String.ofList (Binary64.signText negative ++ body)

def numberText : JsonNumber → String
  | .integer n => toString n
  | .double (.finite negative rank) => doubleText negative rank
  | .double _ => "null"

mutual

def compact : Json → String
  | .null => "null"
  | .bool value => if value then "true" else "false"
  | .number value => numberText value
  | .string text => quote text
  | .array items => "[" ++ compactItems items ++ "]"
  | .object members => "\x7b" ++ compactMembers members ++ "\x7d"
  | .unreadable => "null"

def compactItems : List Json → String
  | [] => ""
  | [item] => compact item
  | item :: rest => compact item ++ "," ++ compactItems rest

def compactMembers : List (String × Json) → String
  | [] => ""
  | [(name, value)] => quote name ++ ":" ++ compact value
  | (name, value) :: rest => quote name ++ ":" ++ compact value ++ "," ++ compactMembers rest

end

def newLine (level : Nat) : String := "\n" ++ String.ofList (List.replicate (2 * level) ' ')

mutual

def prettyAt (level : Nat) : Json → String
  | .array [] => "[]"
  | .object [] => "\x7b\x7d"
  | .array items => "[" ++ prettyItems (level + 1) items ++ newLine level ++ "]"
  | .object members => "\x7b" ++ prettyMembers (level + 1) members ++ newLine level ++ "\x7d"
  | json => compact json

def prettyItems (level : Nat) : List Json → String
  | [] => ""
  | [item] => newLine level ++ prettyAt level item
  | item :: rest => newLine level ++ prettyAt level item ++ "," ++ prettyItems level rest

def prettyMembers (level : Nat) : List (String × Json) → String
  | [] => ""
  | [(name, value)] => newLine level ++ quote name ++ ": " ++ prettyAt level value
  | (name, value) :: rest =>
    newLine level ++ quote name ++ ": " ++ prettyAt level value ++ "," ++ prettyMembers level rest

end

def pretty (json : Json) : String := prettyAt 0 json

end ProxyMonitor.Json
