import ProxyMonitor.FetchError
import ProxyMonitor.History
import ProxyMonitor.Overview

namespace ProxyMonitor

/-- Whether the metrics endpoint answers; an unavailable one answers with another status than
success. -/
inductive Availability where
  | pending
  | available
  | unavailable (status : Nat)
  deriving DecidableEq, Repr

structure MetricsState where
  sequence : Nat
  availability : Availability
  families : Snapshot
  history : History
  totalRequests : Binary64
  lastUpdatedMs : Option Nat
  lastError : Option String
  skippedLines : Nat
  deriving DecidableEq

namespace MetricsState

def new (history : History) : MetricsState where
  sequence := 0
  availability := .pending
  families := []
  history := history
  totalRequests := .zero
  lastUpdatedMs := none
  lastError := none
  skippedLines := 0

def overview (state : MetricsState) (nowMs : Nat) : Overview :=
  .ofSnapshot state.families nowMs state.totalRequests

def updated (state : MetricsState) (families : Snapshot) (skipped nowMs : Nat) : MetricsState :=
  let history := state.history.record families nowMs
  { sequence := state.sequence + 1
    availability := .available
    families, history
    totalRequests := (history.totalRequests? families).getD .zero
    lastUpdatedMs := some nowMs
    lastError := none
    skippedLines := skipped }

/-- A poll that failed keeps what earlier ones brought; only a refusing endpoint changes the
availability. -/
def failed (state : MetricsState) (error : FetchError) : MetricsState :=
  { state with
    sequence := state.sequence + 1
    lastError := some error.message
    availability := match error with
      | .endpointUnavailable status => .unavailable status
      | _ => state.availability }

end MetricsState

structure Sampler where
  reader : Exposition.Reader
  state : MetricsState

namespace Sampler

def new (options : HistoryOptions) : Sampler := ⟨.new, .new (.new options)⟩

def apply (sampler : Sampler) (result : Except FetchError String) (nowMs : Nat) : Sampler :=
  match result with
  | .error error => { sampler with state := sampler.state.failed error }
  | .ok text =>
    let (families, reader) := sampler.reader.read text
    match families with
    | .error problem => ⟨reader, sampler.state.failed (.parse problem)⟩
    | .ok families => ⟨reader, sampler.state.updated families reader.skipped.length nowMs⟩

end Sampler

end ProxyMonitor
