import ProxyMonitor.Feed

/-! The four sampling tasks, one step at a time: each step leads a task from one wait to the
next. -/

namespace ProxyMonitor

structure Cadence where
  periodMs : Nat
  dueMs : Nat
  deriving DecidableEq

namespace Cadence

def toleranceMs : Nat := 5

def isDue (cadence : Cadence) (nowMs : Nat) : Bool := cadence.dueMs ≤ nowMs

/-- The plan after a poll that began at `nowMs`: a late one shifts all that follow. -/
def fire (cadence : Cadence) (nowMs : Nat) : Cadence :=
  { cadence with
    dueMs := (if cadence.dueMs + toleranceMs < nowMs then nowMs else cadence.dueMs) +
      cadence.periodMs }

end Cadence

inductive TaskPhase where
  | unstarted
  | fetching
  | waiting
  | ended
  deriving DecidableEq, Repr

structure SamplingOptions where
  history : HistoryOptions
  describeUrls : List String

namespace SamplingOptions

def default : SamplingOptions := ⟨.default, ["*"]⟩

end SamplingOptions

structure FetchCounts where
  metrics : Nat
  reports : Nat
  documents : Nat
  info : Nat
  deriving DecidableEq

structure Sampling where
  feed : Feed
  stopped : Bool
  sampler : Sampler
  cadence : Cadence
  metrics : TaskPhase
  reports : TaskPhase
  documents : TaskPhase
  info : TaskPhase
  fetches : FetchCounts

inductive OneShot where
  | documents
  | info
  deriving DecidableEq

namespace OneShot

@[reducible]
def Value : OneShot → Type
  | documents => List Document
  | info => BuildInfo

def prepare : (shot : OneShot) → shot.Value → shot.Value
  | documents => indexDocuments
  | info => id

end OneShot

/-- One step of one task. The result of a fetch comes with the step that takes it. -/
inductive TaskStep where
  | startReports
  | finishReports (result : Except FetchError (List RawReport))
  | resumeReports
  | startOnce (shot : OneShot)
  | finishOnce (shot : OneShot) (result : Except FetchError shot.Value)
  | startMetrics (nowMs : Nat)
  | tick (nowMs : Nat)
  | finishMetrics (result : Except FetchError String) (nowMs : Nat)

structure OnceTask (α : Type) where
  phase : TaskPhase
  begun : Nat
  channel : Channel (Fetched α)

namespace OnceTask

variable {α : Type}

def leave (task : OnceTask α) : OnceTask α :=
  { task with phase := .ended, channel := task.channel.close }

def start (task : OnceTask α) (stopped : Bool) : OnceTask α :=
  if task.phase = .unstarted then
    if stopped then task.leave else { task with phase := .fetching, begun := task.begun + 1 }
  else task

def finish (task : OnceTask α) (stopped : Bool) (outcome : Fetched α) : OnceTask α :=
  if task.phase = .fetching then
    if stopped then task.leave
    else leave { task with channel := task.channel.publish outcome }
  else task

end OnceTask

namespace Sampling

def new (options : SamplingOptions) : Sampling where
  feed := .new
  stopped := false
  sampler := .new options.history
  cadence := ⟨options.history.periodMs, 0⟩
  metrics := .unstarted
  reports := .unstarted
  documents := .unstarted
  info := .unstarted
  fetches := ⟨0, 0, 0, 0⟩

def stop (sampling : Sampling) : Sampling := { sampling with stopped := true }

def isFinished (sampling : Sampling) : Bool :=
  [sampling.metrics, sampling.reports, sampling.documents, sampling.info].all (· = .ended)

def publishReports (sampling : Sampling) (value : Fetched (List AggregatedReport)) : Sampling :=
  { sampling with
    feed := { sampling.feed with reports := sampling.feed.reports.publish value } }

def endReports (sampling : Sampling) : Sampling :=
  { sampling with
    reports := .ended
    feed := { sampling.feed with
      reports := sampling.feed.reports.close
      requestQueued := false
      requestsClosed := true } }

def beginReports (sampling : Sampling) : Sampling :=
  let sampling := sampling.publishReports .pending
  if sampling.stopped then sampling.endReports
  else { sampling with
    reports := .fetching
    fetches := { sampling.fetches with reports := sampling.fetches.reports + 1 } }

def finishReports (sampling : Sampling) (result : Except FetchError (List RawReport)) : Sampling :=
  if sampling.stopped || sampling.feed.dropped then sampling.endReports
  else
    { sampling.publishReports ((Fetched.ofResult result).map aggregate) with reports := .waiting }

def resumeReports (sampling : Sampling) : Sampling :=
  if sampling.stopped then sampling.endReports
  else if sampling.feed.requestQueued then
    beginReports { sampling with feed := { sampling.feed with requestQueued := false } }
  else if sampling.feed.dropped then sampling.endReports
  else sampling

def onceTask (sampling : Sampling) : (shot : OneShot) → OnceTask shot.Value
  | .documents => ⟨sampling.documents, sampling.fetches.documents, sampling.feed.documents⟩
  | .info => ⟨sampling.info, sampling.fetches.info, sampling.feed.info⟩

def setOnceTask (sampling : Sampling) : (shot : OneShot) → OnceTask shot.Value → Sampling
  | .documents, task =>
    { sampling with
      documents := task.phase
      fetches := { sampling.fetches with documents := task.begun }
      feed := { sampling.feed with documents := task.channel } }
  | .info, task =>
    { sampling with
      info := task.phase
      fetches := { sampling.fetches with info := task.begun }
      feed := { sampling.feed with info := task.channel } }

theorem onceTask_setOnceTask (sampling : Sampling) (shot : OneShot) (task : OnceTask shot.Value) :
    (sampling.setOnceTask shot task).onceTask shot = task := by
  cases shot <;> rfl

theorem onceTask_setOnceTask_of_ne (sampling : Sampling) {shot other : OneShot} (h : other ≠ shot)
    (task : OnceTask shot.Value) :
    (sampling.setOnceTask shot task).onceTask other = sampling.onceTask other := by
  cases shot <;> cases other <;> first | exact absurd rfl h | rfl

def startOnce (sampling : Sampling) (shot : OneShot) : Sampling :=
  sampling.setOnceTask shot ((sampling.onceTask shot).start sampling.stopped)

def finishOnce (sampling : Sampling) (shot : OneShot) (result : Except FetchError shot.Value) :
    Sampling :=
  sampling.setOnceTask shot ((sampling.onceTask shot).finish sampling.stopped
    ((Fetched.ofResult result).map shot.prepare))

def endMetrics (sampling : Sampling) : Sampling :=
  { sampling with
    metrics := .ended
    feed := { sampling.feed with metrics := sampling.feed.metrics.close } }

def beginMetrics (sampling : Sampling) (nowMs : Nat) : Sampling :=
  { sampling with metrics := .waiting, cadence := { sampling.cadence with dueMs := nowMs } }

def tick (sampling : Sampling) (nowMs : Nat) : Sampling :=
  if sampling.stopped then sampling.endMetrics
  else if sampling.cadence.isDue nowMs then
    { sampling with
      metrics := .fetching
      cadence := sampling.cadence.fire nowMs
      fetches := { sampling.fetches with metrics := sampling.fetches.metrics + 1 } }
  else sampling

def finishMetrics (sampling : Sampling) (result : Except FetchError String) (nowMs : Nat) :
    Sampling :=
  if sampling.stopped then sampling.endMetrics
  else
    let sampling := { sampling with sampler := sampling.sampler.apply result nowMs }
    if sampling.feed.dropped then sampling.endMetrics
    else { sampling with
      metrics := .waiting
      feed := { sampling.feed with
        metrics := sampling.feed.metrics.publish sampling.sampler.state } }

/-- A step that its task is not at changes nothing. -/
def step (sampling : Sampling) : TaskStep → Sampling
  | .startReports => if sampling.reports = .unstarted then sampling.beginReports else sampling
  | .finishReports result =>
    if sampling.reports = .fetching then sampling.finishReports result else sampling
  | .resumeReports => if sampling.reports = .waiting then sampling.resumeReports else sampling
  | .startOnce shot => sampling.startOnce shot
  | .finishOnce shot result => sampling.finishOnce shot result
  | .startMetrics nowMs =>
    if sampling.metrics = .unstarted then sampling.beginMetrics nowMs else sampling
  | .tick nowMs => if sampling.metrics = .waiting then sampling.tick nowMs else sampling
  | .finishMetrics result nowMs =>
    if sampling.metrics = .fetching then sampling.finishMetrics result nowMs else sampling

end Sampling

end ProxyMonitor
