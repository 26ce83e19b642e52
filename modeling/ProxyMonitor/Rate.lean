import ProxyMonitor.Binary64.Arithmetic

namespace ProxyMonitor

/-- What a difference is divided by: the planned period or the time that passed. -/
inductive RateBasis where
  | nominal
  | measured
  deriving DecidableEq, Repr, Inhabited

/-- What a counter that went backwards gives: nothing or a rate of zero. -/
inductive ResetPolicy where
  | rebaseline
  | clampToZero
  deriving DecidableEq, Repr, Inhabited

structure Observation where
  value : Binary64
  timeMs : Nat
  deriving DecidableEq

structure RateMeter where
  periodMs : Nat
  basis : RateBasis
  resetPolicy : ResetPolicy
  previous : Option Observation
  deriving DecidableEq

namespace RateMeter

def new (periodMs : Nat) (basis : RateBasis) (resetPolicy : ResetPolicy) : RateMeter :=
  ⟨periodMs, basis, resetPolicy, none⟩

def baseline? (meter : RateMeter) : Option Binary64 := meter.previous.map Observation.value

def elapsedMs (meter : RateMeter) (previous current : Observation) : Nat :=
  match meter.basis with
  | .nominal => meter.periodMs
  | .measured => current.timeMs - previous.timeMs

/-- The rate between two observations; a previous value of zero is no baseline. -/
def rate? (meter : RateMeter) (previous current : Observation) : Option Binary64 :=
  if previous.value.same .zero then none
  else if current.value.lt previous.value then
    match meter.resetPolicy with
    | .rebaseline => none
    | .clampToZero => some .zero
  else
    let elapsed := meter.elapsedMs previous current
    if elapsed = 0 then none
    else some ((current.value.sub previous.value).div ((Binary64.ofNat elapsed).div (.ofNat 1000)))

def observe (meter : RateMeter) (value : Option Binary64) (timeMs : Nat) :
    RateMeter × Option Binary64 :=
  let current := value.map (⟨·, timeMs⟩)
  let rate := match meter.previous, current with
    | some previous, some current => meter.rate? previous current
    | _, _ => none
  ({ meter with previous := current }, rate)

end RateMeter

end ProxyMonitor
