import ProxyMonitor.Proofs.Sampling.ReportsTask

/-! Requests for reports: none is lost and none is answered twice, and each that is taken gets a
fetch that begins after the call. -/

namespace ProxyMonitor

def callsAccepted (log : List ReportsSign) : Nat := log.countP (· matches .accepted)

def requestsTaken (log : List ReportsSign) : Nat := log.countP (· matches .taken)

def fetchesBegun (log : List ReportsSign) : Nat := log.countP (· matches .begun)

theorem callsAccepted_append (first later : List ReportsSign) :
    callsAccepted (first ++ later) = callsAccepted first + callsAccepted later := List.countP_append

theorem requestsTaken_append (first later : List ReportsSign) :
    requestsTaken (first ++ later) = requestsTaken first + requestsTaken later := List.countP_append

theorem fetchesBegun_append (first later : List ReportsSign) :
    fetchesBegun (first ++ later) = fetchesBegun first + fetchesBegun later := List.countP_append

def ReportsSign.ofFetch : ReportsSign → Bool
  | begun | ended _ | published _ => true
  | accepted | refused | taken => false

def fetchRound (result : Except FetchError (List RawReport)) : List ReportsSign :=
  [.published .pending, .begun, .ended result, .published (settled result)]

/-- What the log holds of a fetch that has not been settled. -/
inductive Unsettled (task : ReportsTask) : List ReportsSign → Prop where
  | none (idle : task.phase ≠ .fetching) : Unsettled task []
  | inFlight (fetching : task.phase = .fetching) :
      Unsettled task [.published .pending, .begun]
  | neverBegun (ended : task.phase = .ended) (stopped : task.stopped = true) :
      Unsettled task [.published .pending]
  | cut (ended : task.phase = .ended) (stopped : task.stopped = true) :
      Unsettled task [.published .pending, .begun]
  | unheard (ended : task.phase = .ended) (dropped : task.dropped = true)
      (result : Except FetchError (List RawReport)) :
      Unsettled task [.published .pending, .begun, .ended result]

namespace Unsettled

variable {task later : ReportsTask} {rest : List ReportsSign}

theorem eq_nil (h : Unsettled task rest)
    (idle : task.phase ≠ .fetching) (going : task.phase ≠ .ended) : rest = [] := by
  cases h with
  | none => rfl
  | inFlight fetching => exact absurd fetching idle
  | neverBegun ended | cut ended | unheard ended => exact absurd ended going

theorem eq_opening (h : Unsettled task rest)
    (fetching : task.phase = .fetching) : rest = [.published .pending, .begun] := by
  cases h with
  | none idle => exact absurd fetching idle
  | inFlight => rfl
  | neverBegun ended | cut ended | unheard ended =>
      exact absurd (fetching.symm.trans ended) (by decide)

theorem imp (h : Unsettled task rest)
    (phase : later.phase = task.phase) (stopped : task.stopped = true → later.stopped = true)
    (dropped : task.dropped = true → later.dropped = true) : Unsettled later rest := by
  cases h with
  | none idle => exact .none (phase ▸ idle)
  | inFlight fetching => exact .inFlight (phase.trans fetching)
  | neverBegun ended stop => exact .neverBegun (phase.trans ended) (stopped stop)
  | cut ended stop => exact .cut (phase.trans ended) (stopped stop)
  | unheard ended drop result => exact .unheard (phase.trans ended) (dropped drop) result

end Unsettled

namespace ReportsTask

variable {task later : ReportsTask} {log signs : List ReportsSign}

/-- Only an ended task is deaf to requests, and it ended for a reason. -/
structure Phased (task : ReportsTask) : Prop where
  reason : task.phase = .ended → task.stopped = true ∨ task.dropped = true
  closed : task.closed = true ↔ task.phase = .ended

theorem Phased.move (h : task.Phased) (move : task.Move signs later) : later.Phased := by
  obtain ⟨reason, closed⟩ := h
  cases move with
  | still | accept | refuse => exact ⟨reason, closed⟩
  | stop => exact ⟨fun _ => .inl rfl, closed⟩
  | drop => exact ⟨fun _ => .inr rfl, closed⟩
  | begin unstarted => exact ⟨by simp [fetch], by simp_all [fetch, tell]⟩
  | balk _ stopped => exact ⟨fun _ => .inl stopped, by simp [finish]⟩
  | settle fetching => exact ⟨by simp, by simp_all [tell]⟩
  | lose _ _ unheard => exact ⟨fun _ => .inr unheard, by simp [finish]⟩
  | cut _ stopped => exact ⟨fun _ => .inl stopped, by simp [finish]⟩
  | take waiting => exact ⟨by simp [fetch], by simp_all [fetch, tell]⟩
  | leave _ reason => exact ⟨fun _ => reason.imp_right And.right, by simp [finish]⟩

theorem Move.requests (move : task.Move signs later) :
    later.queued.toNat + requestsTaken signs = task.queued.toNat + callsAccepted signs ∨
      later.phase = .ended ∧ later.queued = false ∧ callsAccepted signs = 0 ∧
        requestsTaken signs = 0 := by
  cases move with
  | accept free => exact .inl (by rw [free]; rfl)
  | take _ _ queued => exact .inl (by rw [queued]; rfl)
  | balk | lose | cut | leave => exact .inr ⟨rfl, rfl, rfl, rfl⟩
  | _ => exact .inl rfl

theorem Move.fetches (move : task.Move signs later) :
    later.begun = task.begun + fetchesBegun signs := by
  cases move <;> rfl

theorem Move.phases (move : task.Move signs later) :
    later.phase = .ended ∨
      later.phase = task.phase ∧ fetchesBegun signs = 0 ∧ requestsTaken signs = 0 ∨
      (later.phase = .fetching ∨ later.phase = .waiting) ∧
        (task.phase = .unstarted ∧ fetchesBegun signs = 1 ∧ requestsTaken signs = 0 ∨
          (task.phase = .fetching ∨ task.phase = .waiting) ∧
            fetchesBegun signs = requestsTaken signs) := by
  cases move with
  | begin unstarted => exact .inr (.inr ⟨.inl rfl, .inl ⟨unstarted, rfl, rfl⟩⟩)
  | settle fetching => exact .inr (.inr ⟨.inr rfl, .inr ⟨.inl fetching, rfl⟩⟩)
  | take waiting => exact .inr (.inr ⟨.inl rfl, .inr ⟨.inr waiting, rfl⟩⟩)
  | balk | lose | cut | leave => exact .inl rfl
  | _ => exact .inr (.inl ⟨rfl, rfl, rfl⟩)

theorem Phased.move_of_ended (h : task.Phased) (ended : task.phase = .ended)
    (move : task.Move signs later) :
    later.phase = .ended ∧ callsAccepted signs = 0 ∧ requestsTaken signs = 0 := by
  cases move with
  | still | stop | drop | refuse => exact ⟨ended, rfl, rfl⟩
  | accept _ listening =>
      rw [h.closed.mpr ended] at listening
      cases listening
  | begin phase | balk phase | settle phase | lose phase | cut phase | take phase | leave phase =>
      rw [ended] at phase
      cases phase

/-- Each call that was accepted is taken or queued, or was left by a task that ended. -/
structure Counted (task : ReportsTask) (log : List ReportsSign) : Prop where
  calls : callsAccepted log = requestsTaken log + task.queued.toNat ∨
    task.phase = .ended ∧ callsAccepted log = requestsTaken log + 1
  begun : task.begun = fetchesBegun log
  unstarted : task.phase = .unstarted → fetchesBegun log = 0 ∧ requestsTaken log = 0
  running : task.phase = .fetching ∨ task.phase = .waiting →
    fetchesBegun log = 1 + requestsTaken log

theorem Counted.calls_of_waiting (h : task.Counted log) (waiting : task.phase = .waiting)
    (queued : task.queued = true) : callsAccepted log = requestsTaken log + 1 := by
  rcases h.calls with calls | ⟨ended, -⟩
  · rw [queued] at calls
    exact calls
  · exact absurd (waiting.symm.trans ended) (by decide)

theorem Counted.move (h : task.Counted log) (phased : task.Phased) (move : task.Move signs later) :
    later.Counted (log ++ signs) := by
  constructor
  -- A task that ends leaves its queued request behind: the one call that stays unanswered.
  · rw [callsAccepted_append, requestsTaken_append]
    rcases h.calls with queue | ⟨ended, left⟩
    · rcases move.requests with kept | ⟨ended, empty, noCall, noTaking⟩
      · left
        omega
      · rw [empty, noCall, noTaking]
        cases held : task.queued with
        | false =>
            rw [held] at queue
            exact .inl queue
        | true =>
            rw [held] at queue
            exact .inr ⟨ended, queue⟩
    · obtain ⟨stays, noCall, noTaking⟩ := phased.move_of_ended ended move
      rw [noCall, noTaking]
      exact .inr ⟨stays, left⟩
  · rw [move.fetches, fetchesBegun_append, h.begun]
  · intro unstarted
    rw [fetchesBegun_append, requestsTaken_append]
    rcases move.phases with ended | ⟨same, noFetch, noTaking⟩ | ⟨running, -⟩
    · rw [unstarted] at ended
      cases ended
    · obtain ⟨noneBegun, noneTaken⟩ := h.unstarted (same ▸ unstarted)
      omega
    · rw [unstarted] at running
      rcases running with running | running <;> cases running
  · intro running
    rw [fetchesBegun_append, requestsTaken_append]
    rcases move.phases with ended | ⟨same, noFetch, noTaking⟩ | ⟨-, first | ⟨before, further⟩⟩
    · rw [ended] at running
      rcases running with running | running <;> cases running
    · have before := h.running (same ▸ running)
      omega
    · obtain ⟨unstarted, one, noTaking⟩ := first
      obtain ⟨noneBegun, noneTaken⟩ := h.unstarted unstarted
      omega
    · have counts := h.running before
      omega

def InRounds (task : ReportsTask) (log : List ReportsSign) : Prop :=
  ∃ results rest, log.filter ReportsSign.ofFetch = List.flatMap fetchRound results ++ rest ∧
    Unsettled task rest

theorem InRounds.extend (h : task.InRounds log)
    (rest : ∀ rest, Unsettled task rest →
      Unsettled later (rest ++ signs.filter ReportsSign.ofFetch)) : later.InRounds (log ++ signs) := by
  obtain ⟨results, last, rounds, unsettled⟩ := h
  exact ⟨results, _, by rw [List.filter_append, rounds, List.append_assoc], rest last unsettled⟩

theorem InRounds.move (h : task.InRounds log) (move : task.Move signs later) :
    later.InRounds (log ++ signs) := by
  cases move with
  | still | accept | refuse =>
      exact h.extend fun rest unsettled =>
        (List.append_nil rest).symm ▸ unsettled.imp rfl id id
  | stop =>
      exact h.extend fun rest unsettled =>
        (List.append_nil rest).symm ▸ unsettled.imp rfl (fun _ => rfl) id
  | drop =>
      exact h.extend fun rest unsettled =>
        (List.append_nil rest).symm ▸ unsettled.imp rfl id fun _ => rfl
  | begin unstarted =>
      refine h.extend fun rest unsettled => ?_
      rw [unsettled.eq_nil (by simp [unstarted]) (by simp [unstarted])]
      exact .inFlight rfl
  | balk unstarted stopped =>
      refine h.extend fun rest unsettled => ?_
      rw [unsettled.eq_nil (by simp [unstarted]) (by simp [unstarted])]
      exact .neverBegun rfl stopped
  -- The end of a fetch completes its round, and no rest is left.
  | settle fetching _ _ result =>
      obtain ⟨results, rest, rounds, unsettled⟩ := h
      refine ⟨results ++ [result], [], ?_, .none (by simp)⟩
      rw [List.filter_append, rounds, unsettled.eq_opening fetching, List.flatMap_append,
        List.append_nil, List.append_assoc]
      rfl
  | lose fetching _ unheard result =>
      refine h.extend fun rest unsettled => ?_
      have ended : task.finish.phase = .ended := rfl
      rw [unsettled.eq_opening fetching]
      exact .unheard ended unheard result
  | cut fetching stopped =>
      refine h.extend fun rest unsettled => ?_
      rw [unsettled.eq_opening fetching]
      exact .cut rfl stopped
  | take waiting =>
      refine h.extend fun rest unsettled => ?_
      rw [unsettled.eq_nil (by simp [waiting]) (by simp [waiting])]
      exact .inFlight rfl
  | leave waiting =>
      refine h.extend fun rest unsettled => ?_
      rw [unsettled.eq_nil (by simp [waiting]) (by simp [waiting])]
      exact .none (by simp [finish])

/-- When a request is taken, its call was accepted before, and its fetch begins at once. -/
def Answered (log : List ReportsSign) : Prop :=
  ∀ before after, log = before ++ .taken :: after →
    callsAccepted before = requestsTaken before + 1 ∧
      ∃ rest, after = .published .pending :: .begun :: rest

theorem Move.of_taken (move : task.Move signs later) {before after : List ReportsSign}
    (taken : signs = before ++ .taken :: after) :
    before = [] ∧ after = [.published .pending, .begun] ∧ task.queued = true ∧
      task.phase = .waiting := by
  have member : ReportsSign.taken ∈ signs := by simp [taken]
  cases move with
  | take waiting _ queued =>
      cases before with
      | nil => exact ⟨rfl, (List.cons.inj taken).2.symm, queued, waiting⟩
      | cons first rest =>
          have later : ReportsSign.taken ∈ [ReportsSign.published .pending, .begun] := by
            rw [(List.cons.inj taken).2]
            simp
          simp at later
  | _ => simp at member

theorem Answered.move (h : Answered log) (counted : task.Counted log)
    (move : task.Move signs later) : Answered (log ++ signs) := by
  intro before after split
  rcases List.append_eq_append_iff.mp split with ⟨front, rfl, taken⟩ | ⟨back, rfl, rest⟩
  · obtain ⟨rfl, rfl, queued, waiting⟩ := move.of_taken taken
    rw [List.append_nil]
    exact ⟨counted.calls_of_waiting waiting queued, [], rfl⟩
  · cases back with
    | nil =>
        have opening : signs = [] ++ .taken :: after := rest.symm
        obtain ⟨-, rfl, queued, waiting⟩ := move.of_taken opening
        rw [List.append_nil] at counted
        exact ⟨counted.calls_of_waiting waiting queued, [], rfl⟩
    | cons first back =>
        obtain ⟨rfl, rfl⟩ := List.cons.inj rest
        obtain ⟨calls, further, rfl⟩ := h before back rfl
        exact ⟨calls, further ++ signs, rfl⟩

structure Tracked (task : ReportsTask) (log : List ReportsSign) : Prop where
  phased : task.Phased
  counted : task.Counted log
  rounds : task.InRounds log
  answered : Answered log

theorem Tracked.move (h : task.Tracked log) (move : task.Move signs later) :
    later.Tracked (log ++ signs) where
  phased := h.phased.move move
  counted := h.counted.move h.phased move
  rounds := h.rounds.move move
  answered := h.answered.move h.counted move

end ReportsTask

namespace ReportsTask

variable {task later : ReportsTask} {log signs : List ReportsSign}

theorem Move.started (move : task.Move signs later) (started : task.phase ≠ .unstarted) :
    later.phase ≠ .unstarted := by
  rcases move.phases with ended | ⟨same, -⟩ | ⟨running, -⟩
  · simp [ended]
  · rwa [same]
  · rcases running with running | running <;> simp [running]

theorem Phased.at_work (h : task.Phased) (started : task.phase ≠ .unstarted)
    (running : task.stopped = false) (heard : task.dropped = false) :
    task.phase = .fetching ∨ task.phase = .waiting := by
  cases phase : task.phase with
  | unstarted => exact absurd phase started
  | fetching => exact .inl rfl
  | waiting => exact .inr rfl
  | ended =>
      rcases h.reason phase with stopped | dropped
      · exact absurd (running.symm.trans stopped) (by decide)
      · exact absurd (heard.symm.trans dropped) (by decide)

theorem Counted.underWay (h : task.Counted log) :
    callsAccepted log = requestsTaken log ∨ callsAccepted log = requestsTaken log + 1 := by
  rcases h.calls with calls | ⟨-, calls⟩
  · have one := Bool.toNat_le task.queued
    omega
  · exact .inr calls

theorem Counted.busy_iff (h : task.Counted log) (phased : task.Phased) :
    task.queued = true ∨ task.closed = true ↔
      callsAccepted log = requestsTaken log + 1 ∨ task.phase = .ended := by
  constructor
  · rintro (queued | closed)
    · left
      rcases h.calls with calls | ⟨-, calls⟩
      · rwa [queued] at calls
      · exact calls
    · exact .inr (phased.closed.mp closed)
  · rintro (calls | ended)
    · rcases h.calls with queue | ⟨ended, -⟩
      · left
        cases queued : task.queued with
        | true => rfl
        | false =>
            rw [queued] at queue
            exact absurd (calls.symm.trans queue) (Nat.succ_ne_self _)
      · exact .inr (phased.closed.mpr ended)
    · exact .inr (phased.closed.mpr ended)

end ReportsTask

namespace Sampling

variable {sampling : Sampling} {log : List ReportsSign}

theorem run_append (sampling : Sampling) (events further : List SamplingEvent) :
    sampling.run (events ++ further) = (sampling.run events).run further :=
  List.foldl_append

theorem tracked_new (options : SamplingOptions) : (new options).reportsTask.Tracked [] where
  phased := ⟨by simp [reportsTask, new], by simp [reportsTask, new, Feed.new]⟩
  counted := ⟨.inl rfl, rfl, fun _ => ⟨rfl, rfl⟩, by simp [new, reportsTask]⟩
  rounds := ⟨[], [], rfl, .none (by simp [reportsTask, new])⟩
  answered := by simp [ReportsTask.Answered]

theorem tracked_run (h : sampling.reportsTask.Tracked log) (events : List SamplingEvent) :
    (sampling.run events).reportsTask.Tracked (log ++ sampling.reportsLog events) := by
  induction events generalizing sampling log with
  | nil => rwa [reportsLog, List.append_nil]
  | cons event rest ih =>
      rw [reportsLog, ← List.append_assoc]
      exact ih (h.move (sampling.move_after event))

theorem started_run (started : sampling.reports ≠ .unstarted) (events : List SamplingEvent) :
    (sampling.run events).reports ≠ .unstarted := by
  induction events generalizing sampling with
  | nil => exact started
  | cons event rest ih => exact ih ((sampling.move_after event).started started)

theorem reports_step_startReports (sampling : Sampling) :
    (sampling.step .startReports).reports ≠ .unstarted := by
  rw [step]
  split
  next unstarted =>
    have begun := congrArg ReportsTask.phase sampling.reportsTask_beginReports
    split at begun
    · exact fun still => absurd (begun.symm.trans still) (by simp [ReportsTask.finish])
    · exact fun still => absurd (begun.symm.trans still) (by simp [ReportsTask.fetch])
  next started => exact started

theorem started_of_start (sampling : Sampling) {events : List SamplingEvent}
    (start : .task .startReports ∈ events) : (sampling.run events).reports ≠ .unstarted := by
  obtain ⟨before, after, rfl⟩ := List.append_of_mem start
  rw [run_append]
  exact started_run (reports_step_startReports _) after

def calledOff (sampling : Sampling) : Bool × Bool := (sampling.stopped, sampling.feed.dropped)

theorem calledOff_beginReports (sampling : Sampling) :
    sampling.beginReports.calledOff = sampling.calledOff := by
  simp only [beginReports]
  split <;> rfl

theorem calledOff_step (sampling : Sampling) (step : TaskStep) :
    (sampling.step step).calledOff = sampling.calledOff := by
  cases ofReports : step.ofReports with
  | false =>
      exact congrArg (fun task => (task.stopped, task.dropped)) (reportsTask_step_of_other ofReports)
  | true =>
      cases step with
      | startReports =>
          rw [Sampling.step]
          split
          · exact calledOff_beginReports _
          · rfl
      | finishReports result =>
          simp only [Sampling.step, finishReports]
          split
          · split <;> rfl
          · rfl
      | resumeReports =>
          simp only [Sampling.step, resumeReports]
          split
          · split
            · rfl
            · split
              · exact calledOff_beginReports _
              · split <;> rfl
          · rfl
      | _ => cases ofReports

theorem calledOff_run (sampling : Sampling) {events : List SamplingEvent}
    (going : .stop ∉ events) (heard : .dropFeed ∉ events) :
    (sampling.run events).calledOff = sampling.calledOff := by
  induction events generalizing sampling with
  | nil => rfl
  | cons event rest ih =>
      have here : (sampling.after event).calledOff = sampling.calledOff := by
        cases event with
        | task step => exact calledOff_step sampling step
        | requestReports =>
            simp only [after, Feed.requestReports]
            split
            · rfl
            · split <;> rfl
        | stop => exact absurd List.mem_cons_self going
        | dropFeed => exact absurd List.mem_cons_self heard
      exact (ih _ (mt (List.mem_cons_of_mem _) going) (mt (List.mem_cons_of_mem _) heard)).trans here

theorem at_work_of_start (options : SamplingOptions) {events : List SamplingEvent}
    (start : .task .startReports ∈ events) (going : .stop ∉ events) (heard : .dropFeed ∉ events) :
    ((new options).run events).reports = .fetching ∨
      ((new options).run events).reports = .waiting := by
  have called := Prod.ext_iff.mp ((new options).calledOff_run going heard)
  exact (tracked_run (tracked_new options) events).phased.at_work
    ((new options).started_of_start start) called.1 called.2

theorem callsAccepted_step (sampling : Sampling) (step : TaskStep) :
    callsAccepted (sampling.reportsSigns (.task step)) = 0 := by
  have silent : ∀ task later : ReportsTask, callsAccepted (task.signsTo later) = 0 := by
    intro task later
    rw [ReportsTask.signsTo, callsAccepted_append, callsAccepted_append]
    split <;> simp [callsAccepted, List.countP_replicate]
  cases step with
  | finishReports result =>
      rw [reportsSigns, callsAccepted_append, silent]
      split <;> rfl
  | _ => exact silent _ _

theorem step_finishReports_of_at_work (heard : sampling.calledOff = (false, false))
    (working : sampling.reports = .fetching ∨ sampling.reports = .waiting)
    (result : Except FetchError (List RawReport)) :
    (sampling.step (.finishReports result)).reports = .waiting := by
  obtain ⟨running, kept⟩ := Prod.ext_iff.mp heard
  have going : (sampling.stopped || sampling.feed.dropped) = false :=
    Bool.or_eq_false_iff.mpr ⟨running, kept⟩
  rw [step]
  split
  next => rw [finishReports, if_neg (Bool.eq_false_iff.mp going)]
  next idle => exact working.resolve_left idle

theorem step_resumeReports_of_waiting (running : sampling.stopped = false)
    (waiting : sampling.reports = .waiting) :
    (sampling.step .resumeReports).feed.requestQueued = false := by
  rw [step, if_pos waiting, resumeReports, if_neg (Bool.eq_false_iff.mp running)]
  split
  next =>
    exact congrArg ReportsTask.queued ((reportsTask_beginReports { sampling with
      feed := { sampling.feed with requestQueued := false } }).trans
        (if_neg (Bool.eq_false_iff.mp running)))
  next idle =>
    split
    · rfl
    · exact Bool.eq_false_iff.mpr idle

theorem requestsTaken_round (tracked : sampling.reportsTask.Tracked log)
    (heard : sampling.calledOff = (false, false))
    (working : sampling.reports = .fetching ∨ sampling.reports = .waiting)
    (result : Except FetchError (List RawReport)) :
    callsAccepted log = requestsTaken log + requestsTaken
      (sampling.reportsLog [.task (.finishReports result), .task .resumeReports]) := by
  have waiting := step_finishReports_of_at_work heard working result
  have still := (calledOff_step sampling (.finishReports result)).trans heard
  have empty : (sampling.run [.task (.finishReports result),
      .task .resumeReports]).reportsTask.queued = false :=
    step_resumeReports_of_waiting (congrArg Prod.fst still) waiting
  have silent : callsAccepted (sampling.reportsLog
      [.task (.finishReports result), .task .resumeReports]) = 0 := by
    rw [reportsLog, reportsLog, reportsLog, callsAccepted_append, callsAccepted_append,
      callsAccepted_step, callsAccepted_step]
    rfl
  have later := tracked_run tracked [.task (.finishReports result), .task .resumeReports]
  have going := (calledOff_step (sampling.step (.finishReports result)) .resumeReports).trans still
  -- The queue is empty afterwards, so all that was accepted has been taken.
  rcases later.counted.calls with calls | ⟨ended, -⟩
  · rw [empty, callsAccepted_append, requestsTaken_append, silent] at calls
    exact calls
  · rcases later.phased.reason ended with stopped | dropped
    · exact absurd ((congrArg Prod.fst going).symm.trans stopped) (by decide)
    · exact absurd ((congrArg Prod.snd going).symm.trans dropped) (by decide)

theorem requestReports_eq_false_iff (feed : Feed) :
    feed.requestReports.1 = false ↔ feed.requestQueued = true ∨ feed.requestsClosed = true := by
  rw [Feed.requestReports, ← Bool.or_eq_true]
  split <;> simp_all

end Sampling

structure RequestsKept (events : List SamplingEvent) (sampling : Sampling)
    (log : List ReportsSign) : Prop where
  fetched : .task .startReports ∈ events → .stop ∉ events → .dropFeed ∉ events →
    sampling.fetches.reports = 1 + requestsTaken log
  begun : sampling.fetches.reports = fetchesBegun log
  underWay : callsAccepted log = requestsTaken log ∨ callsAccepted log = requestsTaken log + 1
  /-- A request that waits for the fetch in flight is taken when that has ended. -/
  emptied : .task .startReports ∈ events → .stop ∉ events → .dropFeed ∉ events →
    ∀ result, callsAccepted log = requestsTaken log +
      requestsTaken (sampling.reportsLog [.task (.finishReports result), .task .resumeReports])
  refused : sampling.feed.requestReports.1 = false ↔
    callsAccepted log = requestsTaken log + 1 ∨ sampling.reports = .ended
  told : ∃ results rest, log.filter ReportsSign.ofFetch = List.flatMap fetchRound results ++ rest ∧
    Unsettled sampling.reportsTask rest
  /-- A request is taken after its call, and the next fetch begins after that. -/
  answered : ∀ before after, log = before ++ .taken :: after →
    callsAccepted before = requestsTaken before + 1 ∧
      ∃ rest, after = .published .pending :: .begun :: rest

namespace Sampling

/-- No request for reports is lost or answered twice, whatever the order of the steps and calls. -/
theorem run_requests_kept (options : SamplingOptions) (events : List SamplingEvent) :
    RequestsKept events ((new options).run events) ((new options).reportsLog events) := by
  have tracked := tracked_run (tracked_new options) events
  rw [List.nil_append] at tracked
  refine ⟨?fetched, tracked.counted.begun, tracked.counted.underWay, ?emptied, ?refused,
    tracked.rounds, tracked.answered⟩
  case fetched =>
    intro start going heard
    exact tracked.counted.begun.trans
      (tracked.counted.running (at_work_of_start options start going heard))
  case emptied =>
    intro start going heard result
    exact requestsTaken_round tracked ((new options).calledOff_run going heard)
      (at_work_of_start options start going heard) result
  case refused =>
    exact (requestReports_eq_false_iff _).trans (tracked.counted.busy_iff tracked.phased)

theorem run_requests_kept_before_start :
    let events : List SamplingEvent := [.requestReports, .task .startReports,
      .task (.finishReports (.error .timeout)), .task .resumeReports]
    let sampling := (new .default).run events
    let log := (new .default).reportsLog events
    .task .startReports ∈ events ∧ .stop ∉ events ∧ .dropFeed ∉ events ∧
      requestsTaken log = 1 ∧ sampling.fetches.reports = 1 + requestsTaken log ∧
      callsAccepted log = requestsTaken log + requestsTaken (sampling.reportsLog
        [.task (.finishReports (.ok [])), .task .resumeReports]) := by
  intro events sampling log
  have kept := run_requests_kept .default events
  have start : .task .startReports ∈ events := by simp [events]
  have going : .stop ∉ events := by simp [events]
  have heard : .dropFeed ∉ events := by simp [events]
  exact ⟨start, going, heard, by decide +kernel, kept.fetched start going heard,
    kept.emptied start going heard (.ok [])⟩

end Sampling

end ProxyMonitor
