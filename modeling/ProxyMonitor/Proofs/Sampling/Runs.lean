import ProxyMonitor.Sampling

namespace ProxyMonitor

/-- One step of a task, a call of the consumer, or the loss of the handle or the feed. A handle
that is dropped stops the tasks as one that is told to. -/
inductive SamplingEvent where
  | task (step : TaskStep)
  | requestReports
  | stop
  | dropFeed

namespace Channel

variable {α : Type}

def publication (channel : Channel α) : α × Nat := (channel.value, channel.published)

end Channel

def TaskStep.ofReports : TaskStep → Bool
  | startReports | finishReports _ | resumeReports => true
  | _ => false

namespace Sampling

def after (sampling : Sampling) : SamplingEvent → Sampling
  | .task step => sampling.step step
  | .requestReports =>
    if sampling.feed.dropped then sampling
    else { sampling with feed := sampling.feed.requestReports.2 }
  | .stop => sampling.stop
  | .dropFeed => { sampling with feed := sampling.feed.drop }

def run (sampling : Sampling) (events : List SamplingEvent) : Sampling := events.foldl after sampling

end Sampling

end ProxyMonitor
