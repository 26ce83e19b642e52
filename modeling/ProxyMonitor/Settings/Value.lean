import ProxyMonitor.Decimal.Reading

namespace ProxyMonitor

inductive SettingValue where
  | null
  | bool (value : Bool)
  | integer (value : Int)
  | float (value : Binary64)
  | text (value : String)
  | list (items : List SettingValue)
  | table (members : List (String × SettingValue))
  deriving Inhabited

/-- Named values; of two with one name the first counts. -/
abbrev SettingLayer := List (String × SettingValue)

namespace SettingValue

/-- The nearest word, a half going up; what lies beyond the words is clamped. -/
def roundWord : Binary64 → Nat
  | .infinite false => Word.greatest
  | x => Nat.min (x.roundHalfAway?.getD 0).toNat Word.greatest

def asWord? : SettingValue → Option Nat
  | bool value => some value.toNat
  | integer value => if 0 ≤ value then some value.natAbs else none
  | float value => some (roundWord value)
  | text value =>
    let word := String.ofList (value.toList.map Char.toLower)
    if ["true", "on", "yes"].contains word then some 1
    else if ["false", "off", "no"].contains word then some 0
    else readWord? value.toList
  | _ => none

def asText? : SettingValue → Option String
  | bool value => some (toString value)
  | integer value => some (toString value)
  | float value => some (toString value)
  | text value => some value
  | _ => none

def asTexts? : SettingValue → Option (List String)
  | list items => items.mapM asText?
  | _ => none

def asOptional? {α : Type} (read : SettingValue → Option α) : SettingValue → Option (Option α)
  | null => some none
  | value => (read value).map some

/-- One of a set of names, which a table with that name alone stands for too. -/
def asChoice? {α : Type} (choices : List (String × α)) : SettingValue → Option α
  | text name => choices.lookup name
  | table [(name, _)] => choices.lookup name
  | _ => none

end SettingValue

end ProxyMonitor
