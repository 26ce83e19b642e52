import ProxyMonitor.Proofs.Sampling.ReportsTask

/-! After a stop the tasks publish nothing more, with one exception: a reports task that has not
begun yet says first that the reports are pending. -/

namespace ProxyMonitor

/-- From one moment to a later one nothing was published but on the channel of the reports, no
fetch was folded into the metrics state, and none was begun. -/
structure Silent (sampling later : Sampling) : Prop where
  metrics : later.feed.metrics.publication = sampling.feed.metrics.publication
  documents : later.feed.documents.publication = sampling.feed.documents.publication
  info : later.feed.info.publication = sampling.feed.info.publication
  sampler : later.sampler = sampling.sampler
  fetches : later.fetches = sampling.fetches

namespace Silent

theorem refl (sampling : Sampling) : Silent sampling sampling := ⟨rfl, rfl, rfl, rfl, rfl⟩

theorem trans {first second third : Sampling} (h : Silent first second)
    (later : Silent second third) : Silent first third :=
  ⟨later.metrics.trans h.metrics, later.documents.trans h.documents, later.info.trans h.info,
    later.sampler.trans h.sampler, later.fetches.trans h.fetches⟩

theorem guarded {sampling later : Sampling} {here : Prop} [Decidable here]
    (silent : Silent sampling later) : Silent sampling (if here then later else sampling) := by
  split
  · exact silent
  · exact .refl sampling

end Silent

/-- From one moment to a later one the reports task has published nothing, or it has begun and has
only said that the reports are pending. -/
inductive ReportsTask.Closing (task later : ReportsTask) : Prop where
  | still (publication : later.publication = task.publication)
      (phase : later.phase = .unstarted ↔ task.phase = .unstarted)
  | opened (publication : later.publication = (.pending, task.publication.2 + 1))
      (unstarted : task.phase = .unstarted) (begun : later.phase ≠ .unstarted)

namespace ReportsTask

variable {task later : ReportsTask} {signs : List ReportsSign}

theorem Closing.trans {last : ReportsTask} (h : task.Closing later) (next : later.Closing last) :
    task.Closing last := by
  cases h with
  | still publication phase =>
      cases next with
      | still second phase' => exact .still (second.trans publication) (phase'.trans phase)
      | opened second unstarted begun =>
          exact .opened (publication ▸ second) (phase.mp unstarted) begun
  | opened publication unstarted begun =>
      cases next with
      | still second phase => exact .opened (second.trans publication) unstarted (begun ∘ phase.mp)
      | opened _ later => exact absurd later begun

theorem Move.closing (move : task.Move signs later) (stopped : task.stopped = true) :
    later.stopped = true ∧ task.Closing later := by
  cases move with
  | still | drop | accept | refuse => exact ⟨stopped, .still rfl .rfl⟩
  | stop => exact ⟨rfl, .still rfl .rfl⟩
  | balk unstarted => exact ⟨stopped, .opened rfl unstarted (by simp [finish])⟩
  | cut phase | leave phase => exact ⟨stopped, .still rfl (by simp [finish, phase])⟩
  | begin _ running | settle _ running | lose _ running | take _ running =>
      exact absurd (stopped.symm.trans running) (by decide)

end ReportsTask

namespace Sampling

variable {sampling : Sampling}

theorem silent_setOnceTask {shot : OneShot} {task : OnceTask shot.Value}
    (publication : task.channel.publication = (sampling.onceTask shot).channel.publication)
    (begun : task.begun = (sampling.onceTask shot).begun) :
    Silent sampling (sampling.setOnceTask shot task) := by
  cases shot with
  | documents => exact ⟨rfl, publication, rfl, rfl, congrArg (FetchCounts.mk _ _ · _) begun⟩
  | info => exact ⟨rfl, rfl, publication, rfl, congrArg (FetchCounts.mk _ _ _ ·) begun⟩

theorem silent_step (stopped : sampling.stopped = true) (step : TaskStep) :
    Silent sampling (sampling.step step) := by
  -- Each step looks at the stop before it does anything else, but for the first one of the reports.
  cases step with
  | startReports =>
      have opened : sampling.beginReports = (sampling.publishReports .pending).endReports :=
        if_pos stopped
      exact .guarded (opened ▸ ⟨rfl, rfl, rfl, rfl, rfl⟩)
  | finishReports result =>
      rw [step, finishReports, stopped]
      exact .guarded ⟨rfl, rfl, rfl, rfl, rfl⟩
  | resumeReports =>
      rw [step, Sampling.resumeReports, if_pos stopped]
      exact .guarded ⟨rfl, rfl, rfl, rfl, rfl⟩
  | startOnce shot =>
      rw [step, startOnce, stopped]
      refine silent_setOnceTask ?_ ?_
      all_goals
        rw [OnceTask.start]
        split <;> rfl
  | finishOnce shot result =>
      rw [step, finishOnce, stopped]
      refine silent_setOnceTask ?_ ?_
      all_goals
        rw [OnceTask.finish]
        split <;> rfl
  | startMetrics nowMs => exact .guarded ⟨rfl, rfl, rfl, rfl, rfl⟩
  | tick nowMs =>
      rw [step, Sampling.tick, if_pos stopped]
      exact .guarded ⟨rfl, rfl, rfl, rfl, rfl⟩
  | finishMetrics result nowMs =>
      rw [step, finishMetrics, if_pos stopped]
      exact .guarded ⟨rfl, rfl, rfl, rfl, rfl⟩

theorem silent_after (stopped : sampling.stopped = true) (event : SamplingEvent) :
    Silent sampling (sampling.after event) := by
  cases event with
  | task step => exact silent_step stopped step
  | requestReports =>
      rw [after, Feed.requestReports]
      split
      · exact .refl sampling
      · split <;> exact ⟨rfl, rfl, rfl, rfl, rfl⟩
  | stop | dropFeed => exact ⟨rfl, rfl, rfl, rfl, rfl⟩

theorem run_of_stopped (stopped : sampling.stopped = true) (events : List SamplingEvent) :
    Silent sampling (sampling.run events) ∧
      sampling.reportsTask.Closing (sampling.run events).reportsTask := by
  induction events generalizing sampling with
  | nil => exact ⟨.refl sampling, .still rfl .rfl⟩
  | cons event rest ih =>
      obtain ⟨stays, closing⟩ := (sampling.move_after event).closing stopped
      obtain ⟨silent, closed⟩ := ih stays
      exact ⟨(silent_after stopped event).trans silent, closing.trans closed⟩

/-- What is published after a stop, whatever happened before it and whatever happens later. -/
theorem publications_after_stop (options : SamplingOptions) (before later : List SamplingEvent) :
    let stopped := ((new options).run before).stop
    let last := stopped.run later
    Silent stopped last ∧
      last.feed.reports.publication =
        if stopped.reports = .unstarted ∧ last.reports ≠ .unstarted then
          (.pending, stopped.feed.reports.published + 1)
        else stopped.feed.reports.publication := by
  intro stopped last
  obtain ⟨silent, closing⟩ : Silent stopped last ∧ stopped.reportsTask.Closing last.reportsTask :=
    run_of_stopped rfl later
  refine ⟨silent, ?_⟩
  cases closing with
  | still publication phase => rw [if_neg fun given => given.2 (phase.mpr given.1)]; exact publication
  | opened publication unstarted begun => rw [if_pos ⟨unstarted, begun⟩]; exact publication

theorem publishes_pending_after_stop :
    ¬ ∀ (options : SamplingOptions) (before later : List SamplingEvent),
      let stopped := ((new options).run before).stop
      (stopped.run later).feed.reports.publication = stopped.feed.reports.publication := by
  intro silent
  have once : 1 = 0 := congrArg Prod.snd (silent .default [] [.task .startReports])
  cases once

end Sampling

end ProxyMonitor
