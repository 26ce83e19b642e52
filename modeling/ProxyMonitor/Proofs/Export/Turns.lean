import ProxyMonitor.Export.Gathering
import ProxyMonitor.Proofs.PollRuns

namespace ProxyMonitor

/-- What the fetches of a source bring; each poll of the metrics has its own result. -/
structure Answers where
  polls : Nat → Except FetchError String
  reports : Except FetchError (List RawReport)
  documents : Except FetchError (List Document)
  info : Except FetchError BuildInfo

def Answers.once (answers : Answers) : (shot : OneShot) → Except FetchError shot.Value
  | .documents => answers.documents
  | .info => answers.info

/-- Who goes on, or how much time passes. -/
inductive Turn where
  | reports
  | once (shot : OneShot)
  | metrics
  | look
  | elapse (ms : Nat)
  deriving DecidableEq

def settledAs {α β : Type} (f : α → β) : Except FetchError α → Fetched β
  | .ok value => .ready (f value)
  | .error error => .failed error.message

theorem map_ofResult {α β : Type} (f : α → β) (result : Except FetchError α) :
    (Fetched.ofResult result).map f = settledAs f result := by
  cases result <;> rfl

theorem isPending_settledAs {α β : Type} (f : α → β) (result : Except FetchError α) :
    (settledAs f result).isPending = false := by
  cases result <;> rfl

namespace Sampling

def next? (sampling : Sampling) (answers : Answers) (nowMs : Nat) : Turn → Option TaskStep
  | .reports => match sampling.reports with
    | .unstarted => some .startReports
    | .fetching => some (.finishReports answers.reports)
    | .waiting => some .resumeReports
    | .ended => none
  | .once shot => match (sampling.onceTask shot).phase with
    | .unstarted => some (.startOnce shot)
    | .fetching => some (.finishOnce shot (answers.once shot))
    | .waiting | .ended => none
  | .metrics => match sampling.metrics with
    | .unstarted => some (.startMetrics nowMs)
    | .waiting => some (.tick nowMs)
    | .fetching => some (.finishMetrics (answers.polls (sampling.fetches.metrics - 1)) nowMs)
    | .ended => none
  | .look | .elapse _ => none

def turn (sampling : Sampling) (answers : Answers) (nowMs : Nat) (turn : Turn) : Sampling :=
  ((sampling.next? answers nowMs turn).map sampling.step).getD sampling

/-- Nobody stops the tasks, drops the feed or asks for reports again. -/
structure Quiet (sampling : Sampling) : Prop where
  running : sampling.stopped = false
  heard : sampling.feed.dropped = false
  idle : sampling.feed.requestQueued = false

inductive Move (answers : Answers) (nowMs : Nat) (sampling : Sampling) :
    Turn → Sampling → Prop where
  | beginReports (unstarted : sampling.reports = .unstarted) :
      Move answers nowMs sampling .reports
        { sampling.publishReports .pending with
          reports := .fetching
          fetches := { sampling.fetches with reports := sampling.fetches.reports + 1 } }
  | settleReports (fetching : sampling.reports = .fetching) :
      Move answers nowMs sampling .reports
        { sampling.publishReports (settledAs aggregate answers.reports) with reports := .waiting }
  | restReports (settled : sampling.reports = .waiting ∨ sampling.reports = .ended) :
      Move answers nowMs sampling .reports sampling
  | beginOnce (shot : OneShot) (unstarted : (sampling.onceTask shot).phase = .unstarted) :
      Move answers nowMs sampling (.once shot)
        (sampling.setOnceTask shot
          { sampling.onceTask shot with
            phase := .fetching
            begun := (sampling.onceTask shot).begun + 1 })
  | settleOnce (shot : OneShot) (fetching : (sampling.onceTask shot).phase = .fetching) :
      Move answers nowMs sampling (.once shot)
        (sampling.setOnceTask shot
          { sampling.onceTask shot with
            phase := .ended
            channel := ((sampling.onceTask shot).channel.publish
              (settledAs shot.prepare (answers.once shot))).close })
  | restOnce (shot : OneShot)
      (settled : (sampling.onceTask shot).phase = .waiting ∨
        (sampling.onceTask shot).phase = .ended) :
      Move answers nowMs sampling (.once shot) sampling
  | beginMetrics (unstarted : sampling.metrics = .unstarted) :
      Move answers nowMs sampling .metrics (sampling.beginMetrics nowMs)
  | fire (waiting : sampling.metrics = .waiting) (due : sampling.cadence.isDue nowMs = true) :
      Move answers nowMs sampling .metrics
        { sampling with
          metrics := .fetching
          cadence := sampling.cadence.fire nowMs
          fetches := { sampling.fetches with metrics := sampling.fetches.metrics + 1 } }
  | wait (waiting : sampling.metrics = .waiting) (early : sampling.cadence.isDue nowMs = false) :
      Move answers nowMs sampling .metrics sampling
  | poll {sampler : Sampler} (fetching : sampling.metrics = .fetching)
      (applied : sampler =
        sampling.sampler.apply (answers.polls (sampling.fetches.metrics - 1)) nowMs) :
      Move answers nowMs sampling .metrics
        { sampling with
          sampler
          metrics := .waiting
          feed := { sampling.feed with metrics := sampling.feed.metrics.publish sampler.state } }
  | restMetrics (ended : sampling.metrics = .ended) : Move answers nowMs sampling .metrics sampling
  | look : Move answers nowMs sampling .look sampling
  | elapse (ms : Nat) : Move answers nowMs sampling (.elapse ms) sampling

section

variable {sampling : Sampling} {answers : Answers} {nowMs : Nat}

theorem turn_of_next {turn : Turn} {step : TaskStep}
    (h : sampling.next? answers nowMs turn = some step) :
    sampling.turn answers nowMs turn = sampling.step step := by
  rw [Sampling.turn, h]
  rfl

theorem turn_of_rest {turn : Turn} (h : sampling.next? answers nowMs turn = none) :
    sampling.turn answers nowMs turn = sampling := by
  rw [Sampling.turn, h]
  rfl

namespace Quiet

variable (quiet : sampling.Quiet)

include quiet

theorem not_stopped : ¬ sampling.stopped = true := by
  rw [quiet.running]
  exact Bool.false_ne_true

theorem move_reports :
    sampling.Move answers nowMs .reports (sampling.turn answers nowMs .reports) := by
  cases phase : sampling.reports with
  | unstarted =>
      have next : sampling.next? answers nowMs .reports = some .startReports := by
        rw [next?, phase]
      have begun : sampling.step .startReports = _ :=
        (if_pos phase).trans (if_neg quiet.not_stopped)
      rw [turn_of_next next, begun]
      exact .beginReports phase
  | fetching =>
      have next : sampling.next? answers nowMs .reports =
          some (.finishReports answers.reports) := by rw [next?, phase]
      have listening : ¬ (sampling.stopped || sampling.feed.dropped) = true := by
        rw [quiet.running, quiet.heard]
        exact Bool.false_ne_true
      have ended : sampling.step (.finishReports answers.reports) = _ :=
        (if_pos phase).trans (if_neg listening)
      rw [turn_of_next next, ended, map_ofResult]
      exact .settleReports phase
  | waiting =>
      have next : sampling.next? answers nowMs .reports = some .resumeReports := by
        rw [next?, phase]
      have idle : ¬ sampling.feed.requestQueued = true := by
        rw [quiet.idle]
        exact Bool.false_ne_true
      have heard : ¬ sampling.feed.dropped = true := by
        rw [quiet.heard]
        exact Bool.false_ne_true
      have still : sampling.step .resumeReports = sampling :=
        (if_pos phase).trans ((if_neg quiet.not_stopped).trans ((if_neg idle).trans (if_neg heard)))
      rw [turn_of_next next, still]
      exact .restReports (.inl phase)
  | ended =>
      rw [turn_of_rest (by rw [next?, phase])]
      exact .restReports (.inr phase)

theorem move_once (shot : OneShot) :
    sampling.Move answers nowMs (.once shot) (sampling.turn answers nowMs (.once shot)) := by
  cases phase : (sampling.onceTask shot).phase with
  | unstarted =>
      have next : sampling.next? answers nowMs (.once shot) = some (.startOnce shot) := by
        rw [next?, phase]
      have begun : (sampling.onceTask shot).start false = _ :=
        (if_pos phase).trans (if_neg Bool.false_ne_true)
      rw [turn_of_next next, step, startOnce, quiet.running, begun]
      exact .beginOnce shot phase
  | fetching =>
      have next : sampling.next? answers nowMs (.once shot) =
          some (.finishOnce shot (answers.once shot)) := by rw [next?, phase]
      have ended (outcome : Fetched shot.Value) :
          (sampling.onceTask shot).finish false outcome = _ :=
        (if_pos phase).trans (if_neg Bool.false_ne_true)
      rw [turn_of_next next, step, finishOnce, quiet.running, ended, map_ofResult]
      exact .settleOnce shot phase
  | waiting =>
      rw [turn_of_rest (by rw [next?, phase])]
      exact .restOnce shot (.inl phase)
  | ended =>
      rw [turn_of_rest (by rw [next?, phase])]
      exact .restOnce shot (.inr phase)

theorem move_metrics :
    sampling.Move answers nowMs .metrics (sampling.turn answers nowMs .metrics) := by
  cases phase : sampling.metrics with
  | unstarted =>
      have next : sampling.next? answers nowMs .metrics = some (.startMetrics nowMs) := by
        rw [next?, phase]
      have begun : sampling.step (.startMetrics nowMs) = _ := if_pos phase
      rw [turn_of_next next, begun]
      exact .beginMetrics phase
  | waiting =>
      have next : sampling.next? answers nowMs .metrics = some (.tick nowMs) := by
        rw [next?, phase]
      rw [turn_of_next next]
      by_cases due : sampling.cadence.isDue nowMs = true
      · have fired : sampling.step (.tick nowMs) = _ :=
          (if_pos phase).trans ((if_neg quiet.not_stopped).trans (if_pos due))
        rw [fired]
        exact .fire phase due
      · have waited : sampling.step (.tick nowMs) = sampling :=
          (if_pos phase).trans ((if_neg quiet.not_stopped).trans (if_neg due))
        rw [waited]
        exact .wait phase (Bool.eq_false_iff.mpr due)
  | fetching =>
      have next : sampling.next? answers nowMs .metrics =
          some (.finishMetrics (answers.polls (sampling.fetches.metrics - 1)) nowMs) := by
        rw [next?, phase]
      have heard : ¬ sampling.feed.dropped = true := by
        rw [quiet.heard]
        exact Bool.false_ne_true
      have polled : sampling.step
          (.finishMetrics (answers.polls (sampling.fetches.metrics - 1)) nowMs) = _ :=
        (if_pos phase).trans ((if_neg quiet.not_stopped).trans (if_neg heard))
      rw [turn_of_next next, polled]
      exact .poll phase rfl
  | ended =>
      rw [turn_of_rest (by rw [next?, phase])]
      exact .restMetrics phase

theorem move (answers : Answers) (nowMs : Nat) (turn : Turn) :
    sampling.Move answers nowMs turn (sampling.turn answers nowMs turn) := by
  cases turn with
  | reports => exact quiet.move_reports
  | once shot => exact quiet.move_once shot
  | metrics => exact quiet.move_metrics
  | look => exact .look
  | elapse ms => exact .elapse ms

end Quiet

end

end Sampling

end ProxyMonitor
