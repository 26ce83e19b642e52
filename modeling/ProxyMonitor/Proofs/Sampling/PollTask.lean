import ProxyMonitor.Proofs.Sampling.Runs

namespace ProxyMonitor

/-- The part of the sampling that bears on metrics. -/
structure PollTask where
  phase : TaskPhase
  sampler : Sampler
  cadence : Cadence
  begun : Nat
  channel : Channel MetricsState

def Sampling.pollTask (sampling : Sampling) : PollTask where
  phase := sampling.metrics
  sampler := sampling.sampler
  cadence := sampling.cadence
  begun := sampling.fetches.metrics
  channel := sampling.feed.metrics

def TaskStep.ofMetrics : TaskStep → Bool
  | startMetrics _ | tick _ | finishMetrics _ _ => true
  | _ => false

namespace Sampling

theorem pollTask_guarded {sampling later : Sampling} {here : Prop} [Decidable here]
    (same : later.pollTask = sampling.pollTask) :
    (if here then later else sampling).pollTask = sampling.pollTask := by
  split
  · exact same
  · rfl

theorem pollTask_step_of_other (sampling : Sampling) {step : TaskStep}
    (other : step.ofMetrics = false) : (sampling.step step).pollTask = sampling.pollTask := by
  cases step with
  | startMetrics => cases other
  | tick => cases other
  | finishMetrics => cases other
  | startReports =>
      refine pollTask_guarded ?_
      rw [beginReports]
      split <;> rfl
  | finishReports result =>
      refine pollTask_guarded ?_
      rw [finishReports]
      split <;> rfl
  | resumeReports =>
      refine pollTask_guarded ?_
      rw [resumeReports]
      split
      · rfl
      · split
        · rw [beginReports]
          split <;> rfl
        · split <;> rfl
  | startOnce shot => cases shot <;> rfl
  | finishOnce shot result => cases shot <;> rfl

end Sampling

end ProxyMonitor
