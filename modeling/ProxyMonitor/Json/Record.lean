import ProxyMonitor.Json

namespace ProxyMonitor.Json

/-- The value of each field, if it is there. A field that is written twice is refused, a member
that is no field is ignored. -/
def fieldsOfMembers? (names : List String) (members : List (String × Json)) :
    Option (List (Option Json)) :=
  names.mapM fun name =>
    match members.filter (·.1 == name) with
    | [] => some none
    | [member] => some (some member.2)
    | _ => none

/-- An array gives the fields in their order; the last ones may be missing. -/
def fieldsOfItems? (names : List String) (items : List Json) : Option (List (Option Json)) :=
  if items.length ≤ names.length then
    some (items.map some ++ List.replicate (names.length - items.length) none)
  else none

def fields? (names : List String) : Json → Option (List (Option Json))
  | .object members => fieldsOfMembers? names members
  | .array items => fieldsOfItems? names items
  | _ => none

def defaulted {α : Type} (decode : Json → Option α) (default : α) : Option Json → Option α
  | none => some default
  | some json => decode json

def optional {α : Type} (decode : Json → Option α) : Option Json → Option (Option α)
  | none => some none
  | some .null => some none
  | some json => (decode json).map some

def listOf? {α : Type} (decode : Json → Option α) (json : Json) : Option (List α) :=
  json.asArray?.bind fun items => items.mapM decode

end ProxyMonitor.Json
