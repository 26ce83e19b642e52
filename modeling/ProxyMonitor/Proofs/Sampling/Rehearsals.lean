import ProxyMonitor.Proofs.Feed.Delivery
import ProxyMonitor.Rehearsal

/-! A rehearsal is a run of its sampling: the script and the clock only choose among the steps of
the tasks, and the consumer polls and calls. -/

namespace ProxyMonitor

namespace Sampling

def watchAll (sampling : Sampling) (events : List WatchEvent) : Sampling := events.foldl watch sampling

/-- A later moment of a sampling, with polls of its feed before it. -/
def Reaches (sampling later : Sampling) : Prop :=
  ∃ events : List WatchEvent, later = sampling.watchAll events

namespace Reaches

variable {sampling middle later : Sampling}

theorem refl (sampling : Sampling) : sampling.Reaches sampling := ⟨[], rfl⟩

theorem single (sampling : Sampling) (event : WatchEvent) :
    sampling.Reaches (sampling.watch event) := ⟨[event], rfl⟩

theorem trans (first : sampling.Reaches middle) (second : middle.Reaches later) :
    sampling.Reaches later := by
  obtain ⟨events, rfl⟩ := first
  obtain ⟨further, rfl⟩ := second
  exact ⟨events ++ further, List.foldl_append.symm⟩

theorem of_steps (sampling : Sampling) (steps : List TaskStep) :
    sampling.Reaches (sampling.run (steps.map .task)) := by
  refine ⟨(steps.map .task).map .sampling, ?_⟩
  rw [watchAll, List.foldl_map]
  rfl

end Reaches

end Sampling

namespace Rehearsal

variable (r : Rehearsal)

theorem sampling_run (isDone : Rehearsal → Bool) (limitMs steps : Nat) :
    ∃ taken : List TaskStep,
      (run isDone limitMs steps r).sampling = r.sampling.run (taken.map .task) := by
  -- The fuel bounds the steps; the clock and the script decide which ones.
  induction steps generalizing r with
  | zero => exact ⟨[], rfl⟩
  | succ steps ih =>
      rw [run]
      split
      next => exact ⟨[], rfl⟩
      next time step _ =>
        split
        · exact ⟨[], rfl⟩
        · obtain ⟨taken, same⟩ := ih (r.take time step)
          exact ⟨step :: taken, same⟩

theorem reaches_run (isDone : Rehearsal → Bool) (limitMs steps : Nat) :
    r.sampling.Reaches (run isDone limitMs steps r).sampling := by
  obtain ⟨taken, same⟩ := r.sampling_run isDone limitMs steps
  exact same ▸ .of_steps r.sampling taken

theorem reaches_await (isDone : Rehearsal → Bool) :
    r.sampling.Reaches (r.await isDone).sampling :=
  r.reaches_run isDone _ _

theorem reaches_awaitUnless (settled : Prop) [Decidable settled] (isDone : Rehearsal → Bool) :
    r.sampling.Reaches (if settled then r else r.await isDone).sampling := by
  split
  · exact .refl _
  · exact r.reaches_await isDone

theorem reaches_markSeen (part : FeedPart) : r.sampling.Reaches (r.markSeen part).sampling := by
  have polled : (r.markSeen part).sampling = r.sampling.watch (.poll part) := by
    cases part <;> rfl
  exact polled ▸ .single r.sampling (.poll part)

theorem reaches_next (part : FeedPart) : r.sampling.Reaches (r.next part).2.sampling := by
  refine .trans ?_ (reaches_markSeen _ part)
  exact r.reaches_awaitUnless _ _

theorem reaches_settled (part : FeedPart) (isReady : part.Value → Bool) :
    r.sampling.Reaches (r.settled part isReady).2.sampling := by
  refine .trans ?_ (reaches_markSeen _ part)
  exact (r.reaches_markSeen part).trans (reaches_awaitUnless _ _ _)

theorem reaches_sleep (spanMs : Nat) : r.sampling.Reaches (r.sleep spanMs).sampling :=
  r.reaches_run (fun _ => false) (r.nowMs + spanMs) (stepsWithin spanMs)

theorem reaches_join : r.sampling.Reaches r.join.sampling :=
  r.reaches_await (·.sampling.isFinished)

theorem reaches_withFeed {act : Rehearsal → Reply × Rehearsal}
    (acts : r.sampling.feed.dropped = false → r.sampling.Reaches (act r).2.sampling) :
    r.sampling.Reaches (r.withFeed act).2.sampling := by
  rw [withFeed]
  split
  next => exact .refl _
  next held => exact acts (Bool.eq_false_iff.mpr held)

theorem reaches_requestReports (held : r.sampling.feed.dropped = false) :
    r.sampling.Reaches r.requestReports.2.sampling := by
  have asked : r.requestReports.2.sampling = r.sampling.watch (.sampling .requestReports) := by
    rw [Sampling.watch, Sampling.after, held]
    rfl
  exact asked ▸ .single r.sampling (.sampling .requestReports)

theorem reaches_stop : r.sampling.Reaches r.stop.sampling :=
  .single r.sampling (.sampling .stop)

theorem reaches_perform (action : ConsumerAction) :
    r.sampling.Reaches (r.perform action).2.sampling := by
  cases action with
  | nextMetrics => exact r.reaches_withFeed fun _ => r.reaches_next .metrics
  | pollMetrics => exact r.reaches_withFeed fun _ => r.reaches_markSeen .metrics
  | settledReports => exact r.reaches_withFeed fun _ => r.reaches_settled .reports (!·.isPending)
  | pollReports => exact r.reaches_withFeed fun _ => r.reaches_markSeen .reports
  | settledDocuments => exact r.reaches_withFeed fun _ => r.reaches_settled .documents (!·.isPending)
  | pollDocuments => exact r.reaches_withFeed fun _ => r.reaches_markSeen .documents
  | settledInfo => exact r.reaches_withFeed fun _ => r.reaches_settled .info (!·.isPending)
  | pollInfo => exact r.reaches_withFeed fun _ => r.reaches_markSeen .info
  | requestReports => exact r.reaches_withFeed r.reaches_requestReports
  | description => exact r.reaches_withFeed fun _ => .refl _
  | sleep spanMs => exact r.reaches_sleep spanMs
  | shutdown =>
      rw [perform]
      split
      · exact r.reaches_stop
      · exact .refl _
  | join =>
      rw [perform]
      split
      · exact r.reaches_join
      · exact .refl _
  | dropHandle =>
      rw [perform]
      split
      · exact r.reaches_stop
      · exact .refl _
  | dropFeed => exact .single r.sampling (.sampling .dropFeed)
  | isFinished => exact .refl _

def performAll (actions : List ConsumerAction) : Rehearsal :=
  actions.foldl (fun r action => (r.perform action).2) r

/-- A whole rehearsal is a run of a new sampling, so what holds of every such run holds of it. -/
theorem reaches_performAll (options : SamplingOptions) (script : Script)
    (actions : List ConsumerAction) :
    (Sampling.new options).Reaches ((new options script).performAll actions).sampling := by
  have onwards : ∀ r : Rehearsal, r.sampling.Reaches (r.performAll actions).sampling := by
    intro r
    induction actions generalizing r with
    | nil => exact .refl _
    | cons action rest ih => exact (r.reaches_perform action).trans (ih _)
  exact onwards (new options script)

end Rehearsal

end ProxyMonitor
