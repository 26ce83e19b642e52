import ProxyMonitor.Decimal
import ProxyMonitor.Labels

namespace ProxyMonitor

inductive JsonNumber where
  | integer (value : Int)
  | double (value : Binary64)
  deriving DecidableEq

/-- `unreadable` stands for a well-formed text without a value: a number beyond all doubles, half of
a surrogate pair, or nesting beyond the limit. It may be ignored but not used. -/
inductive Json where
  | null
  | bool (value : Bool)
  | number (value : JsonNumber)
  | string (text : String)
  | array (items : List Json)
  | object (members : List (String × Json))
  | unreadable
  deriving Inhabited

namespace Json

def ofNat (n : Nat) : Json := .number (.integer n)

def ofInt (n : Int) : Json := .number (.integer n)

def ofDouble (x : Binary64) : Json :=
  match x with
  | .finite _ _ => .number (.double x)
  | _ => .null

def ofOption {α : Type} (encode : α → Json) : Option α → Json
  | some value => encode value
  | none => .null

def strings (texts : List String) : Json := .array (texts.map .string)

def asString? : Json → Option String
  | .string text => some text
  | _ => none

def asWord? : Json → Option Nat
  | .number (.integer n) => if 0 ≤ n then some n.natAbs else none
  | _ => none

def asArray? : Json → Option (List Json)
  | .array items => some items
  | _ => none

def asStrings? (json : Json) : Option (List String) :=
  json.asArray?.bind fun items => items.mapM asString?

def get? (json : Json) (name : String) : Option Json :=
  match json with
  | .object members => members.reverse.lookup name
  | _ => none

mutual

def isReadable : Json → Bool
  | .unreadable => false
  | .array items => areReadable items
  | .object members => membersReadable members
  | _ => true

def areReadable : List Json → Bool
  | [] => true
  | item :: rest => isReadable item && areReadable rest

def membersReadable : List (String × Json) → Bool
  | [] => true
  | (_, value) :: rest => isReadable value && membersReadable rest

end

/-- Members by increasing name; of members with one name the last stays. -/
def sortMembers (members : List (String × Json)) : List (String × Json) :=
  members.foldl (fun sorted member => insertEntry member.1 member.2 sorted) []

mutual

def canonical : Json → Json
  | .array items => .array (canonicalItems items)
  | .object members => .object (sortMembers (canonicalMembers members))
  | json => json

def canonicalItems : List Json → List Json
  | [] => []
  | item :: rest => canonical item :: canonicalItems rest

def canonicalMembers : List (String × Json) → List (String × Json)
  | [] => []
  | (name, value) :: rest => (name, canonical value) :: canonicalMembers rest

end

end Json

end ProxyMonitor
