import Mathlib.Data.List.Induction
import ProxyMonitor.Sampler

namespace ProxyMonitor

structure Poll where
  result : Except FetchError String
  timeMs : Nat

namespace Poll

/-- The families of a poll and the lines skipped on the way to them, or its error. -/
def outcome (poll : Poll) : Except FetchError (Snapshot × Nat) :=
  match poll.result with
  | .error error => .error error
  | .ok text =>
    match (Exposition.read text).families with
    | .error problem => .error (.parse problem)
    | .ok families => .ok (families, (Exposition.read text).skipped.length)

def succeeded (poll : Poll) : Bool :=
  match poll.outcome with
  | .ok _ => true
  | .error _ => false

/-- What a poll shows of the endpoint; transport, timeouts and unreadable texts show nothing. -/
def verdict? (poll : Poll) : Option Availability :=
  match poll.outcome with
  | .ok _ => some .available
  | .error (.endpointUnavailable status) => some (.unavailable status)
  | .error _ => none

def failure? (poll : Poll) : Option String :=
  match poll.outcome with
  | .ok _ => none
  | .error error => some error.message

end Poll

namespace MetricsState

def advance (state : MetricsState) (poll : Poll) : MetricsState :=
  match poll.outcome with
  | .ok (families, skipped) => state.updated families skipped poll.timeMs
  | .error error => state.failed error

theorem advance_sequence (state : MetricsState) (poll : Poll) :
    (state.advance poll).sequence = state.sequence + 1 := by
  rw [advance]
  cases poll.outcome <;> rfl

end MetricsState

namespace Sampler

def run (sampler : Sampler) (polls : List Poll) : Sampler :=
  polls.foldl (fun sampler poll => sampler.apply poll.result poll.timeMs) sampler

/-- The reader remembers lines of its last text only, so it never reaches a later state. -/
theorem apply_state (sampler : Sampler) (poll : Poll) :
    (sampler.apply poll.result poll.timeMs).state = sampler.state.advance poll := by
  unfold apply MetricsState.advance Poll.outcome
  cases poll.result with
  | error error => rfl
  | ok text =>
      simp only [Exposition.Reader.read]
      cases (Exposition.read text).families with
      | error problem => rfl
      | ok families => rfl

theorem run_state (sampler : Sampler) (polls : List Poll) :
    (sampler.run polls).state = polls.foldl MetricsState.advance sampler.state := by
  induction polls generalizing sampler with
  | nil => rfl
  | cons poll rest ih =>
      rw [run, List.foldl_cons, ← run, ih, apply_state, List.foldl_cons]

end Sampler

namespace MetricsState

theorem advance_merged (data : MetricsState) (poll : Poll) (sequence : Nat)
    (availability : Availability) (lastError : Option String) :
    { data with sequence, availability, lastError }.advance poll =
      { if poll.succeeded then data.advance poll else data with
        sequence := sequence + 1
        availability := poll.verdict?.getD availability
        lastError := poll.failure? } := by
  rw [advance, advance, Poll.succeeded, Poll.verdict?, Poll.failure?]
  cases poll.outcome with
  | ok brought => rfl
  | error error => cases error <;> rfl

end MetricsState

/-- The state after a run: the data are those of the successful polls alone, the sequence counts
all polls, the availability is what the last telling poll showed, the error that of the last. -/
theorem sampler_run_state (reader : Exposition.Reader) (history : History) (polls : List Poll) :
    ((⟨reader, .new history⟩ : Sampler).run polls).state =
      { ((⟨.new, .new history⟩ : Sampler).run (polls.filter Poll.succeeded)).state with
        sequence := polls.length
        availability := (polls.filterMap Poll.verdict?).getLast?.getD .pending
        lastError := polls.getLast?.bind Poll.failure? } := by
  rw [Sampler.run_state, Sampler.run_state]
  induction polls using List.reverseRecOn with
  | nil => rfl
  | append_singleton earlier poll ih =>
      rw [List.foldl_append, List.foldl_cons, List.foldl_nil, ih, MetricsState.advance_merged,
        List.filter_append, List.foldl_append, List.filterMap_append, List.getLast?_append,
        List.length_append, List.getLast?_concat]
      cases shown : poll.verdict? <;> cases good : poll.succeeded <;>
        simp [shown, good]

end ProxyMonitor
