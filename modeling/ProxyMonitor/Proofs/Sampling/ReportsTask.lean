import ProxyMonitor.Proofs.Sampling.Runs

/-! The reports task by itself: what can be seen of it, and all the moves that it can make. -/

namespace ProxyMonitor

/-- Something that is seen of the reports task or of the calls that ask it for another fetch. -/
inductive ReportsSign where
  | accepted
  | refused
  | taken
  | begun
  | ended (result : Except FetchError (List RawReport))
  | published (value : Fetched (List AggregatedReport))

/-- The part of the sampling that bears on reports. -/
structure ReportsTask where
  phase : TaskPhase
  queued : Bool
  closed : Bool
  stopped : Bool
  dropped : Bool
  begun : Nat
  publication : Fetched (List AggregatedReport) × Nat

def settled : Except FetchError (List RawReport) → Fetched (List AggregatedReport)
  | .ok reports => .ready (aggregate reports)
  | .error error => .failed error.message

theorem map_ofResult_eq_settled (result : Except FetchError (List RawReport)) :
    (Fetched.ofResult result).map aggregate = settled result := by
  cases result <;> rfl

namespace ReportsTask

variable (task : ReportsTask)

def tell (value : Fetched (List AggregatedReport)) : ReportsTask :=
  { task with publication := (value, task.publication.2 + 1) }

def fetch : ReportsTask :=
  { task.tell .pending with phase := .fetching, begun := task.begun + 1 }

def finish : ReportsTask := { task with phase := .ended, queued := false, closed := true }

/-- The moves of the task and its surroundings, each with its signs. -/
inductive Move : List ReportsSign → ReportsTask → Prop where
  | still : Move [] task
  | stop : Move [] { task with stopped := true }
  | drop : Move [] { task with dropped := true }
  | accept (free : task.queued = false) (listening : task.closed = false) :
      Move [.accepted] { task with queued := true }
  | refuse (busy : task.queued = true ∨ task.closed = true) : Move [.refused] task
  | begin (unstarted : task.phase = .unstarted) (running : task.stopped = false) :
      Move [.published .pending, .begun] task.fetch
  | balk (unstarted : task.phase = .unstarted) (stopped : task.stopped = true) :
      Move [.published .pending] (task.tell .pending).finish
  | settle (fetching : task.phase = .fetching) (running : task.stopped = false)
      (heard : task.dropped = false) (result : Except FetchError (List RawReport)) :
      Move [.ended result, .published (settled result)]
        { task.tell (settled result) with phase := .waiting }
  | lose (fetching : task.phase = .fetching) (running : task.stopped = false)
      (unheard : task.dropped = true) (result : Except FetchError (List RawReport)) :
      Move [.ended result] task.finish
  | cut (fetching : task.phase = .fetching) (stopped : task.stopped = true) : Move [] task.finish
  | take (waiting : task.phase = .waiting) (running : task.stopped = false)
      (queued : task.queued = true) :
      Move [.taken, .published .pending, .begun] { task.fetch with queued := false }
  | leave (waiting : task.phase = .waiting)
      (reason : task.stopped = true ∨ task.queued = false ∧ task.dropped = true) :
      Move [] task.finish

def signsTo (later : ReportsTask) : List ReportsSign :=
  (if task.queued ∧ later.queued = false ∧ later.phase ≠ .ended then [.taken] else []) ++
    List.replicate (later.publication.2 - task.publication.2) (.published later.publication.1) ++
    List.replicate (later.begun - task.begun) .begun

variable {task} in
theorem signsTo_of_same {later : ReportsTask} (queued : later.queued = task.queued)
    (publication : later.publication = task.publication) (begun : later.begun = task.begun) :
    task.signsTo later = [] := by
  have kept : ¬ (task.queued = true ∧ later.queued = false ∧ later.phase ≠ .ended) := by
    rw [queued]
    exact fun given => Bool.noConfusion (given.1.symm.trans given.2.1)
  rw [signsTo, if_neg kept, publication, begun, Nat.sub_self, Nat.sub_self]
  rfl

theorem signsTo_finish : task.signsTo task.finish = [] := by
  simp [signsTo, finish]

theorem signsTo_fetch : task.signsTo task.fetch = [.published .pending, .begun] := by
  simp [signsTo, fetch, tell]

end ReportsTask

namespace Sampling

def reportsTask (sampling : Sampling) : ReportsTask where
  phase := sampling.reports
  queued := sampling.feed.requestQueued
  closed := sampling.feed.requestsClosed
  stopped := sampling.stopped
  dropped := sampling.feed.dropped
  begun := sampling.fetches.reports
  publication := sampling.feed.reports.publication

def reportsSigns (sampling : Sampling) (event : SamplingEvent) : List ReportsSign :=
  let told : List ReportsSign := match event with
    | .requestReports =>
      if sampling.feed.dropped then []
      else if sampling.feed.requestReports.1 then [.accepted] else [.refused]
    | .task (.finishReports result) =>
      if sampling.reports = .fetching ∧ sampling.stopped = false then [.ended result] else []
    | _ => []
  told ++ sampling.reportsTask.signsTo (sampling.after event).reportsTask

def reportsLog (sampling : Sampling) : List SamplingEvent → List ReportsSign
  | [] => []
  | event :: rest => sampling.reportsSigns event ++ (sampling.after event).reportsLog rest

section

variable {sampling : Sampling}

theorem reportsTask_beginReports (sampling : Sampling) :
    sampling.beginReports.reportsTask =
      if sampling.stopped then (sampling.reportsTask.tell .pending).finish
      else sampling.reportsTask.fetch := by
  by_cases stopped : sampling.stopped = true
  · have opened : sampling.beginReports = (sampling.publishReports .pending).endReports :=
      if_pos stopped
    rw [opened, if_pos stopped]
    rfl
  · rw [if_neg stopped, beginReports]
    exact congrArg reportsTask (if_neg stopped)

theorem reportsTask_step_of_other {step : TaskStep}
    (other : step.ofReports = false) :
    (sampling.step step).reportsTask = sampling.reportsTask := by
  cases step with
  | startReports => cases other
  | finishReports result => cases other
  | resumeReports => cases other
  | startOnce shot => cases shot <;> rfl
  | finishOnce shot result => cases shot <;> rfl
  | startMetrics nowMs =>
      simp only [step]
      split <;> rfl
  | tick nowMs =>
      simp only [step, tick]
      split
      · split
        · rfl
        · split <;> rfl
      · rfl
  | finishMetrics result nowMs =>
      simp only [step, finishMetrics]
      split
      · split
        · rfl
        · split <;> rfl
      · rfl

theorem move_of_other {step : TaskStep} (other : step.ofReports = false) :
    sampling.reportsTask.Move (sampling.reportsSigns (.task step))
      (sampling.after (.task step)).reportsTask := by
  have signs : sampling.reportsSigns (.task step) =
      sampling.reportsTask.signsTo (sampling.step step).reportsTask := by
    cases step with
    | finishReports result => cases other
    | _ => rfl
  rw [signs, after, reportsTask_step_of_other other, ReportsTask.signsTo_of_same rfl rfl rfl]
  exact .still

theorem move_requestReports (sampling : Sampling) :
    sampling.reportsTask.Move (sampling.reportsSigns .requestReports)
      (sampling.after .requestReports).reportsTask := by
  simp only [reportsSigns, after, Feed.requestReports]
  split
  next =>
    rw [ReportsTask.signsTo_of_same rfl rfl rfl]
    exact .still
  next =>
    split
    next busy =>
      rw [ReportsTask.signsTo_of_same rfl rfl rfl]
      exact .refuse (Bool.or_eq_true_iff.mp busy)
    next idle =>
      rw [Bool.or_eq_true, not_or, Bool.not_eq_true, Bool.not_eq_true] at idle
      have silent : sampling.reportsTask.signsTo { sampling.reportsTask with queued := true } = [] := by
        simp [ReportsTask.signsTo]
      change ReportsTask.Move _ (_ ++ ReportsTask.signsTo _ { sampling.reportsTask with queued := true })
        { sampling.reportsTask with queued := true }
      rw [silent]
      exact .accept idle.1 idle.2

theorem move_startReports (sampling : Sampling) :
    sampling.reportsTask.Move (sampling.reportsSigns (.task .startReports))
      (sampling.after (.task .startReports)).reportsTask := by
  simp only [reportsSigns, after, step]
  split
  next unstarted =>
    rw [reportsTask_beginReports]
    split
    next stopped =>
      have signs : sampling.reportsTask.signsTo (sampling.reportsTask.tell .pending).finish =
          [.published .pending] := by
        simp [ReportsTask.signsTo, ReportsTask.tell, ReportsTask.finish]
      rw [signs]
      exact .balk unstarted stopped
    next running =>
      rw [ReportsTask.signsTo_fetch]
      exact .begin unstarted (Bool.eq_false_iff.mpr running)
  next =>
    rw [ReportsTask.signsTo_of_same rfl rfl rfl]
    exact .still

theorem move_finishReports (sampling : Sampling) (result : Except FetchError (List RawReport)) :
    sampling.reportsTask.Move (sampling.reportsSigns (.task (.finishReports result)))
      (sampling.after (.task (.finishReports result))).reportsTask := by
  simp only [reportsSigns, after, step]
  by_cases fetching : sampling.reports = .fetching
  · rw [if_pos fetching, Sampling.finishReports]
    by_cases stopped : sampling.stopped = true
    · rw [if_neg fun given => absurd stopped (Bool.not_eq_true _ ▸ given.2), stopped, Bool.true_or,
        if_pos rfl]
      change ReportsTask.Move _ (_ ++ ReportsTask.signsTo _ sampling.reportsTask.finish)
        sampling.reportsTask.finish
      rw [ReportsTask.signsTo_finish]
      exact .cut fetching stopped
    · have running : sampling.stopped = false := Bool.eq_false_iff.mpr stopped
      rw [if_pos ⟨fetching, running⟩, running, Bool.false_or]
      split
      next unheard =>
        change ReportsTask.Move _ (_ ++ ReportsTask.signsTo _ sampling.reportsTask.finish)
          sampling.reportsTask.finish
        rw [ReportsTask.signsTo_finish]
        exact .lose fetching running unheard result
      next heard =>
        have told : { sampling.publishReports ((Fetched.ofResult result).map aggregate) with
            reports := .waiting }.reportsTask =
            { sampling.reportsTask.tell (settled result) with phase := .waiting } := by
          rw [map_ofResult_eq_settled]
          rfl
        have signs : sampling.reportsTask.signsTo
            { sampling.reportsTask.tell (settled result) with phase := .waiting } =
              [.published (settled result)] := by
          simp [ReportsTask.signsTo, ReportsTask.tell]
        rw [told, signs]
        exact .settle fetching running (Bool.eq_false_iff.mpr heard) result
  · rw [if_neg fetching, if_neg fun given => fetching given.1, ReportsTask.signsTo_of_same rfl rfl rfl]
    exact .still

theorem move_resumeReports (sampling : Sampling) :
    sampling.reportsTask.Move (sampling.reportsSigns (.task .resumeReports))
      (sampling.after (.task .resumeReports)).reportsTask := by
  simp only [reportsSigns, after, step]
  split
  next waiting =>
    have left : sampling.endReports.reportsTask = sampling.reportsTask.finish := rfl
    rw [Sampling.resumeReports]
    split
    next stopped =>
      rw [left, ReportsTask.signsTo_finish]
      exact .leave waiting (.inl stopped)
    next running =>
      split
      next queued =>
        have taken : (beginReports { sampling with
            feed := { sampling.feed with requestQueued := false } }).reportsTask =
            { sampling.reportsTask.fetch with queued := false } := by
          rw [reportsTask_beginReports, if_neg running]
          rfl
        have signs : sampling.reportsTask.signsTo { sampling.reportsTask.fetch with queued := false } =
            [.taken, .published .pending, .begun] := by
          have held : sampling.reportsTask.queued = true := queued
          simp [ReportsTask.signsTo, ReportsTask.fetch, ReportsTask.tell, held]
        rw [taken, signs]
        exact .take waiting (Bool.eq_false_iff.mpr running) queued
      next idle =>
        split
        next unheard =>
          rw [left, ReportsTask.signsTo_finish]
          exact .leave waiting (.inr ⟨Bool.eq_false_iff.mpr idle, unheard⟩)
        next =>
          rw [ReportsTask.signsTo_of_same rfl rfl rfl]
          exact .still
  next =>
    rw [ReportsTask.signsTo_of_same rfl rfl rfl]
    exact .still

theorem move_after (sampling : Sampling) (event : SamplingEvent) :
    sampling.reportsTask.Move (sampling.reportsSigns event) (sampling.after event).reportsTask := by
  cases event with
  | task step =>
      cases step with
      | startReports => exact sampling.move_startReports
      | finishReports result => exact sampling.move_finishReports result
      | resumeReports => exact sampling.move_resumeReports
      | _ => exact move_of_other rfl
  | requestReports => exact sampling.move_requestReports
  | stop =>
      have signs : sampling.reportsSigns .stop = [] := ReportsTask.signsTo_of_same rfl rfl rfl
      rw [signs]
      exact .stop
  | dropFeed =>
      have signs : sampling.reportsSigns .dropFeed = [] := ReportsTask.signsTo_of_same rfl rfl rfl
      rw [signs]
      exact .drop

end

end Sampling

end ProxyMonitor
