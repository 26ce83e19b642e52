import ProxyMonitor.FetchError

namespace ProxyMonitor

inductive Fetched (α : Type) where
  | pending
  | ready (value : α)
  | failed (text : String)
  deriving DecidableEq

namespace Fetched

variable {α β : Type}

def ofResult : Except FetchError α → Fetched α
  | .ok value => ready value
  | .error error => failed error.message

def isPending : Fetched α → Bool
  | pending => true
  | _ => false

def ready? : Fetched α → Option α
  | ready value => some value
  | _ => none

def map (f : α → β) : Fetched α → Fetched β
  | pending => pending
  | ready value => ready (f value)
  | failed text => failed text

end Fetched

end ProxyMonitor
