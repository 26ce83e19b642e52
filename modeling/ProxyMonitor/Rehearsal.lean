import ProxyMonitor.Sampling

/-! Rehearsals: the sampler on scripted fetches under a clock that moves only when every task
waits. -/

namespace ProxyMonitor

structure Take (α : Type) where
  delayMs : Nat
  result : Except FetchError α

namespace Take

variable {α : Type}

def refused : Take α := ⟨0, .error (.transport "connection refused")⟩

def pick (takes : List (Take α)) (n : Nat) : Take α :=
  (takes[n]?.or takes.getLast?).getD refused

def longest (takes : List (Take α)) : Nat := (takes.map Take.delayMs).foldl Nat.max 0

end Take

structure Script where
  description : String
  metrics : List (Take String)
  reports : List (Take (List RawReport))
  documents : Take (List Document)
  info : Take BuildInfo

structure Moments where
  metrics : Nat
  reports : Nat
  documents : Nat
  info : Nat

structure Rehearsal where
  script : Script
  sampling : Sampling
  nowMs : Nat
  since : Moments
  handleHeld : Bool

namespace Rehearsal

def epochMs : Nat := 1000000

def new (options : SamplingOptions) (script : Script) : Rehearsal where
  script := script
  sampling := .new options
  nowMs := 0
  since := ⟨0, 0, 0, 0⟩
  handleHeld := true

/-- When a fetch begun at `since` ends; the tasks of a stopped sampler wait no longer. -/
def endOf {α : Type} (rehearsal : Rehearsal) (since : Nat) (take : Take α) : Nat :=
  if rehearsal.sampling.stopped then rehearsal.nowMs else since + take.delayMs

def nextOfReports (r : Rehearsal) : Option (Nat × TaskStep) :=
  match r.sampling.reports with
  | .unstarted => some (r.nowMs, .startReports)
  | .fetching =>
    let take := Take.pick r.script.reports (r.sampling.fetches.reports - 1)
    some (r.endOf r.since.reports take, .finishReports take.result)
  | .waiting =>
    if r.sampling.stopped || r.sampling.feed.requestQueued || r.sampling.feed.dropped then
      some (r.nowMs, .resumeReports)
    else none
  | .ended => none

def nextOnce (r : Rehearsal) (shot : OneShot) (since : Nat) (take : Take shot.Value) :
    Option (Nat × TaskStep) :=
  match (r.sampling.onceTask shot).phase with
  | .unstarted => some (r.nowMs, .startOnce shot)
  | .fetching => some (r.endOf since take, .finishOnce shot take.result)
  | _ => none

def nextOfMetrics (r : Rehearsal) : Option (Nat × TaskStep) :=
  match r.sampling.metrics with
  | .unstarted => some (r.nowMs, .startMetrics r.nowMs)
  | .waiting =>
    let time := if r.sampling.stopped then r.nowMs else Nat.max r.nowMs r.sampling.cadence.dueMs
    some (time, .tick time)
  | .fetching =>
    let take := Take.pick r.script.metrics (r.sampling.fetches.metrics - 1)
    let time := r.endOf r.since.metrics take
    some (time, .finishMetrics take.result (epochMs + time))
  | .ended => none

def next? (r : Rehearsal) : Option (Nat × TaskStep) :=
  [r.nextOfReports, r.nextOnce .documents r.since.documents r.script.documents,
    r.nextOnce .info r.since.info r.script.info, r.nextOfMetrics].foldl
    (fun first next => match first, next with
      | some first, some next => some (if next.1 < first.1 then next else first)
      | first, next => first.or next)
    none

def take (r : Rehearsal) (time : Nat) (step : TaskStep) : Rehearsal :=
  let since := match step with
    | .startReports | .finishReports _ | .resumeReports => { r.since with reports := time }
    | .startOnce .documents | .finishOnce .documents _ => { r.since with documents := time }
    | .startOnce .info | .finishOnce .info _ => { r.since with info := time }
    | .startMetrics _ | .tick _ | .finishMetrics .. => { r.since with metrics := time }
  { r with sampling := r.sampling.step step, nowMs := time, since }

/-- Takes the steps before `limitMs`, but none at a later moment than the one at which `isDone`
holds. -/
def run (isDone : Rehearsal → Bool) (limitMs : Nat) : (steps : Nat) → Rehearsal → Rehearsal
  | 0, r => r
  | steps + 1, r =>
    match r.next? with
    | none => r
    | some (time, step) =>
      if limitMs ≤ time || (r.nowMs < time && isDone r) then r
      else run isDone limitMs steps (r.take time step)

def stepsWithin (spanMs : Nat) : Nat := 2 * spanMs + 40

/-- By then every fetch in flight has ended, and a further one of each kind. -/
def horizonMs (r : Rehearsal) : Nat :=
  r.sampling.cadence.periodMs + 1 + 2 * List.foldl Nat.max 0 [Take.longest r.script.metrics,
    Take.longest r.script.reports, r.script.documents.delayMs, r.script.info.delayMs]

def await (r : Rehearsal) (isDone : Rehearsal → Bool) : Rehearsal :=
  run isDone (r.nowMs + r.horizonMs) (stepsWithin r.horizonMs) r

def sleep (r : Rehearsal) (spanMs : Nat) : Rehearsal :=
  { run (fun _ => false) (r.nowMs + spanMs) (stepsWithin spanMs) r with nowMs := r.nowMs + spanMs }

def mapFeed (r : Rehearsal) (f : Feed → Feed) : Rehearsal :=
  { r with sampling := { r.sampling with feed := f r.sampling.feed } }

def channel (r : Rehearsal) (part : FeedPart) : Channel part.Value :=
  r.sampling.feed.channel part

def markSeen (r : Rehearsal) (part : FeedPart) : Rehearsal :=
  r.mapFeed fun feed => feed.setChannel part (feed.channel part).markSeen

def poll (r : Rehearsal) (part : FeedPart) : Option part.Value × Rehearsal :=
  (((r.channel part).poll).1, r.markSeen part)

def next (r : Rehearsal) (part : FeedPart) : Option part.Value × Rehearsal :=
  let isDone (r : Rehearsal) := (r.channel part).hasNew || (r.channel part).closed
  (if isDone r then r else r.await isDone).poll part

def settled (r : Rehearsal) (part : FeedPart) (isReady : part.Value → Bool) :
    Option part.Value × Rehearsal :=
  let isReady (r : Rehearsal) := isReady (r.channel part).value
  let isDone (r : Rehearsal) := isReady r || (r.channel part).closed
  let r := r.markSeen part
  let r := if isDone r then r else r.await isDone
  (if isReady r then some (r.channel part).value else none, r.markSeen part)

end Rehearsal

inductive ConsumerAction where
  | nextMetrics
  | pollMetrics
  | settledReports
  | pollReports
  | settledDocuments
  | pollDocuments
  | settledInfo
  | pollInfo
  | requestReports
  | description
  | sleep (spanMs : Nat)
  | shutdown
  | join
  | dropHandle
  | dropFeed
  | isFinished

inductive Reply where
  | nothing
  | noFeed
  | flag (value : Bool)
  | text (value : String)
  | metrics (state : MetricsState)
  | reports (value : Fetched (List AggregatedReport))
  | documents (value : Fetched (List Document))
  | info (value : Fetched BuildInfo)

namespace Rehearsal

def replied {α : Type} (reply : α → Reply) (outcome : Option α × Rehearsal) : Reply × Rehearsal :=
  ((outcome.1.map reply).getD .nothing, outcome.2)

def stop (r : Rehearsal) : Rehearsal := { r with sampling := r.sampling.stop }

def withFeed (r : Rehearsal) (act : Rehearsal → Reply × Rehearsal) : Reply × Rehearsal :=
  if r.sampling.feed.dropped then (.noFeed, r) else act r

def requestReports (r : Rehearsal) : Reply × Rehearsal :=
  let (queued, feed) := r.sampling.feed.requestReports
  (.flag queued, r.mapFeed fun _ => feed)

def join (r : Rehearsal) : Rehearsal :=
  { r.await (·.sampling.isFinished) with handleHeld := false }

def perform (r : Rehearsal) : ConsumerAction → Reply × Rehearsal
  | .nextMetrics => r.withFeed fun r => replied .metrics (r.next .metrics)
  | .pollMetrics => r.withFeed fun r => replied .metrics (r.poll .metrics)
  | .settledReports => r.withFeed fun r => replied .reports (r.settled .reports (!·.isPending))
  | .pollReports => r.withFeed fun r => replied .reports (r.poll .reports)
  | .settledDocuments =>
    r.withFeed fun r => replied .documents (r.settled .documents (!·.isPending))
  | .pollDocuments => r.withFeed fun r => replied .documents (r.poll .documents)
  | .settledInfo => r.withFeed fun r => replied .info (r.settled .info (!·.isPending))
  | .pollInfo => r.withFeed fun r => replied .info (r.poll .info)
  | .requestReports => r.withFeed requestReports
  | .description => r.withFeed fun r => (.text r.script.description, r)
  | .sleep spanMs => (.nothing, r.sleep spanMs)
  | .shutdown => (.nothing, if r.handleHeld then r.stop else r)
  | .join => (.nothing, if r.handleHeld then r.join else r)
  | .dropHandle => (.nothing, if r.handleHeld then { r.stop with handleHeld := false } else r)
  | .dropFeed => (.nothing, r.mapFeed Feed.drop)
  | .isFinished => (if r.handleHeld then .flag r.sampling.isFinished else .nothing, r)

end Rehearsal

end ProxyMonitor
