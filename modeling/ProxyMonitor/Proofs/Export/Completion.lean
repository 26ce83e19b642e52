import ProxyMonitor.Proofs.Export.Exporting

/-! An export ends, with settled data, in whatever order the fetches end. -/

namespace ProxyMonitor

theorem Exporting.min_le_rank_run {answers : Answers} {holds : Exporting → Prop} {goal : Nat}
    {own : Turn} (rank : Exporting → Nat)
    (keeps : ∀ exporting turn, holds exporting → holds (exporting.take answers turn))
    (rises : ∀ exporting turn, holds exporting →
      min goal (rank exporting + if turn = own then 1 else 0) ≤ rank (exporting.take answers turn))
    {exporting : Exporting} (now : holds exporting) (turns : List Turn) :
    min goal (rank exporting + turns.count own) ≤ rank (exporting.run answers turns) := by
  induction turns generalizing exporting with
  | nil => exact Nat.min_le_right _ _
  | cons turn rest ih =>
      have here := rises exporting turn now
      have later := ih (keeps exporting turn now)
      change _ ≤ rank ((exporting.take answers turn).run answers rest)
      -- What is beyond the goal after this turn stays beyond it: `later` counts from there.
      rw [List.count_cons]
      simp only [beq_iff_eq]
      omega

def TaskPhase.rank : TaskPhase → Nat
  | unstarted => 0
  | fetching => 1
  | waiting | ended => 2

theorem TaskPhase.rank_of_unstarted {phase : TaskPhase} (unstarted : phase = .unstarted) :
    min 2 (phase.rank + 1) ≤ fetching.rank := by
  subst unstarted
  decide

theorem TaskPhase.rank_of_ended {phase : TaskPhase} (settled : phase = .waiting ∨ phase = .ended)
    (n : Nat) : min 2 n ≤ phase.rank := by
  rcases settled with rfl | rfl <;> exact Nat.min_le_left 2 n

def PollTask.rank (task : PollTask) : Nat :=
  if task.channel.published = 0 then
    match task.phase with
    | .unstarted | .ended => 0
    | .waiting => 1
    | .fetching => 2
  else 3

def Gathering.rank : Gathering → Nat
  | atMetrics | abandoned => 0
  | atReports .. => 1
  | atDocuments .. => 2
  | atInfo .. => 3
  | done .. => 4

section

variable {options : SamplingOptions} {answers : Answers} {nowMs : Nat} {sampling later : Sampling}
  {turn : Turn} {exporting : Exporting}

theorem Sampling.Move.rank_reports (move : sampling.Move answers nowMs turn later) :
    min 2 (sampling.reports.rank + if turn = .reports then 1 else 0) ≤ later.reports.rank := by
  cases move with
  | beginReports unstarted => exact TaskPhase.rank_of_unstarted unstarted
  | settleReports _ => exact TaskPhase.rank_of_ended (.inl rfl) _
  | restReports settled => exact TaskPhase.rank_of_ended settled _
  | beginOnce shot | settleOnce shot => cases shot <;> exact Nat.min_le_right _ _
  | _ => exact Nat.min_le_right _ _

theorem Sampling.Move.rank_once (move : sampling.Move answers nowMs turn later) (shot : OneShot) :
    min 2 ((sampling.onceTask shot).phase.rank + if turn = .once shot then 1 else 0) ≤
      (later.onceTask shot).phase.rank := by
  have others {shot other : OneShot} (foreign : shot ≠ other) : Turn.once other ≠ .once shot :=
    fun same => foreign (Turn.once.inj same).symm
  cases move with
  | beginOnce other unstarted =>
      by_cases own : shot = other
      · subst own
        rw [if_pos rfl, Sampling.onceTask_setOnceTask]
        exact TaskPhase.rank_of_unstarted unstarted
      · rw [if_neg (others own), Sampling.onceTask_setOnceTask_of_ne _ own]
        exact Nat.min_le_right _ _
  | settleOnce other fetching =>
      by_cases own : shot = other
      · subst own
        rw [Sampling.onceTask_setOnceTask]
        exact TaskPhase.rank_of_ended (.inr rfl) _
      · rw [if_neg (others own), Sampling.onceTask_setOnceTask_of_ne _ own]
        exact Nat.min_le_right _ _
  | restOnce other settled =>
      by_cases own : shot = other
      · subst own
        exact TaskPhase.rank_of_ended settled _
      · rw [if_neg (others own)]
        exact Nat.min_le_right _ _
  | _ => cases shot <;> exact Nat.min_le_right _ _

theorem PollTask.rank_turn {answer : Nat → Except FetchError String} {sampler : Sampler}
    {polls : List Poll} {task : PollTask} (h : Polled answer sampler polls nowMs task) :
    min 3 (task.rank + 1) ≤ (task.turn answer nowMs).rank := by
  cases phase : task.phase with
  | unstarted =>
      rw [turn_unstarted phase, rank, rank, phase]
      split <;> simp
  | waiting =>
      cases due : task.cadence.isDue nowMs with
      | false =>
          have made : task.channel.published ≠ 0 := by
            intro none
            rw [h.counted, List.length_eq_zero_iff] at none
            have early := of_decide_eq_false due
            exact early (h.due phase none)
          rw [turn_early phase due, rank, if_neg made]
          exact Nat.min_le_left _ _
      | true =>
          rw [turn_due phase due, rank, rank, phase]
          split <;> simp
  | fetching =>
      rw [turn_fetching phase rfl, rank]
      exact Nat.min_le_left _ _
  | ended => exact absurd phase h.lasting

theorem TaskPhase.ended_of_rank {phase : TaskPhase} (high : 2 ≤ phase.rank) :
    phase = .waiting ∨ phase = .ended := by
  cases phase with
  | unstarted => cases high
  | fetching => exact absurd high (by decide)
  | waiting => exact .inl rfl
  | ended => exact .inr rfl

theorem PollTask.published_of_rank {task : PollTask} (high : 3 ≤ task.rank) :
    task.channel.published ≠ 0 := by
  intro none
  rw [rank, if_pos none] at high
  split at high <;> omega

namespace Exporting

structure Supplied (exporting : Exporting) : Prop where
  reports : 2 ≤ exporting.sampling.reports.rank
  once : ∀ shot, 2 ≤ (exporting.sampling.onceTask shot).phase.rank
  metrics : 3 ≤ exporting.sampling.pollTask.rank

theorem Kept.rank_metrics (kept : exporting.Kept options answers) (turn : Turn) :
    min 3 (exporting.sampling.pollTask.rank + if turn = .metrics then 1 else 0) ≤
      (exporting.take answers turn).sampling.pollTask.rank := by
  have tasks : (exporting.take answers turn).sampling.pollTask = _ :=
    (kept.quiet.move answers exporting.nowMs turn).pollTask
  obtain ⟨polls, polled⟩ := kept.polled
  rw [tasks]
  by_cases own : turn = .metrics
  · rw [if_pos own, if_pos own]
    exact PollTask.rank_turn polled
  · rw [if_neg own, if_neg own]
    exact Nat.min_le_right _ _

theorem Supplied.take (supplied : exporting.Supplied) (kept : exporting.Kept options answers)
    (turn : Turn) : (exporting.take answers turn).Supplied := by
  have move := kept.quiet.move answers exporting.nowMs turn
  have reports := supplied.reports
  have metrics := supplied.metrics
  refine ⟨?_, fun shot => ?_, ?_⟩
  · exact Nat.le_trans (by omega) move.rank_reports
  · have once := supplied.once shot
    exact Nat.le_trans (by omega) (move.rank_once shot)
  · exact Nat.le_trans (by omega) (kept.rank_metrics turn)

theorem Kept.supplied (kept : exporting.Kept options answers) {turns : List Turn}
    (reports : 2 ≤ turns.count .reports) (once : ∀ shot, 2 ≤ turns.count (.once shot))
    (metrics : 3 ≤ turns.count .metrics) :
    (exporting.run answers turns).Supplied := by
  have keeps : ∀ exporting turn, Kept options answers exporting →
      Kept options answers (exporting.take answers turn) := fun _ turn kept => kept.take turn
  have move (exporting : Exporting) (turn : Turn) (kept : exporting.Kept options answers) :=
    kept.quiet.move answers exporting.nowMs turn
  have reportsRise := min_le_rank_run (fun exporting => exporting.sampling.reports.rank) keeps
    (fun exporting turn kept => (move exporting turn kept).rank_reports) kept turns
  have onceRise (shot : OneShot) :=
    min_le_rank_run (fun exporting => (exporting.sampling.onceTask shot).phase.rank) keeps
      (fun exporting turn kept => (move exporting turn kept).rank_once shot) kept turns
  have metricsRise := min_le_rank_run (fun exporting => exporting.sampling.pollTask.rank) keeps
    (fun exporting turn kept => kept.rank_metrics turn) kept turns
  refine ⟨?_, fun shot => ?_, ?_⟩
  · exact Nat.le_trans (by omega) reportsRise
  · have enough := once shot
    exact Nat.le_trans (by omega) (onceRise shot)
  · exact Nat.le_trans (by omega) metricsRise

theorem Kept.rank_advance (kept : exporting.Kept options answers) (supplied : exporting.Supplied) :
    min 4 (exporting.gathering.rank + 1) ≤
      (exporting.gathering.advance exporting.sampling.feed).rank := by
  have reports := kept.reports.settled (isPending_settledAs _ _)
  have once (shot : OneShot) := (kept.once shot).settled (isPending_settledAs _ _)
  rw [if_pos (TaskPhase.ended_of_rank supplied.reports)] at reports
  have documents : exporting.sampling.feed.documents.settled? = _ :=
    (once .documents).trans (if_pos (TaskPhase.ended_of_rank (supplied.once .documents)))
  have info : exporting.sampling.feed.info.settled? = _ :=
    (once .info).trans (if_pos (TaskPhase.ended_of_rank (supplied.once .info)))
  -- Whatever stage the gathering is at, what it waits for has settled.
  cases stage : exporting.gathering with
  | atMetrics =>
      obtain ⟨polls, polled⟩ := kept.polled
      have published := PollTask.published_of_rank supplied.metrics
      have unseen : exporting.sampling.feed.metrics.seen = 0 := polled.unseen
      have new : exporting.sampling.feed.metrics.hasNew = true := by
        rw [Channel.hasNew, bne_iff_ne, unseen]
        exact Ne.symm published
      rw [Gathering.advance, if_pos new]
      exact Nat.min_le_right 4 _
  | atReports metrics =>
      rw [Gathering.advance, reports]
      exact Nat.min_le_right 4 _
  | atDocuments metrics list =>
      rw [Gathering.advance, documents]
      exact Nat.min_le_right 4 _
  | atInfo metrics list index =>
      rw [Gathering.advance, info]
      exact Nat.min_le_right 4 _
  | done metrics list index build => exact Nat.min_le_left _ _
  | abandoned =>
      have gathered := kept.gathered
      rw [stage] at gathered
      exact gathered.elim

theorem Kept.rank_gathering (kept : exporting.Kept options answers) (supplied : exporting.Supplied)
    (turn : Turn) :
    min 4 (exporting.gathering.rank + if turn = .look then 1 else 0) ≤
      (exporting.take answers turn).gathering.rank := by
  cases turn with
  | look => exact kept.rank_advance supplied
  | _ => exact Nat.min_le_right _ _

end Exporting

end

/-- Each task comes to its turn often enough, and then the gathering does. -/
def Served (turns : List Turn) : Prop :=
  ∃ before after, turns = before ++ after ∧ 2 ≤ before.count .reports ∧
    (∀ shot, 2 ≤ before.count (.once shot)) ∧ 3 ≤ before.count .metrics ∧
    4 ≤ after.count .look

theorem Exporting.Kept.done {options : SamplingOptions} {answers : Answers} {exporting : Exporting}
    (kept : exporting.Kept options answers) {turns : List Turn} (served : Served turns) :
    ∃ metrics reports documents info,
      (exporting.run answers turns).gathering = .done metrics reports documents info := by
  obtain ⟨before, after, rfl, reports, once, metrics, looks⟩ := served
  have middle := kept.run before
  have supplied := kept.supplied reports once metrics
  have keeps : ∀ exporting turn,
      Kept options answers exporting ∧ Supplied exporting →
        Kept options answers (exporting.take answers turn) ∧
          Supplied (exporting.take answers turn) :=
    fun _ turn holds => ⟨holds.1.take turn, holds.2.take holds.1 turn⟩
  have rises := min_le_rank_run (fun exporting => exporting.gathering.rank) keeps
    (fun _ turn holds => holds.1.rank_gathering holds.2 turn) ⟨middle, supplied⟩ after
  have whole : exporting.run answers (before ++ after) =
      (exporting.run answers before).run answers after := List.foldl_append ..
  rw [whole]
  cases stage : ((exporting.run answers before).run answers after).gathering with
  | done metrics reports documents info => exact ⟨metrics, reports, documents, info, rfl⟩
  | _ =>
      rw [stage] at rises
      simp only [Gathering.rank] at rises
      omega

theorem Exporting.Kept.settled_of_done {options : SamplingOptions} {answers : Answers}
    {exporting : Exporting} (kept : exporting.Kept options answers) {metrics : MetricsState}
    {reports : Fetched (List AggregatedReport)} {documents : Fetched (List Document)}
    {info : Fetched BuildInfo} (done : exporting.gathering = .done metrics reports documents info) :
    Reached options answers.polls metrics ∧ reports = settledAs aggregate answers.reports ∧
      documents = settledAs indexDocuments answers.documents ∧
      info = settledAs id answers.info := by
  have gathered := kept.gathered
  rw [done] at gathered
  exact gathered

def Gathering.metrics? : Gathering → Option MetricsState
  | atReports metrics | atDocuments metrics _ | atInfo metrics _ _ | done metrics _ _ _ =>
    some metrics
  | atMetrics | abandoned => none

structure Polling where
  task : PollTask
  gathered : Option MetricsState
  nowMs : Nat

namespace Polling

def take (answer : Nat → Except FetchError String) (polling : Polling) : Turn → Polling
  | .metrics => { polling with task := polling.task.turn answer polling.nowMs }
  | .look =>
    { polling with
      gathered := polling.gathered.or
        (if polling.task.channel.hasNew then some polling.task.channel.value else none) }
  | .elapse ms => { polling with nowMs := polling.nowMs + ms }
  | .reports | .once _ => polling

def run (answer : Nat → Except FetchError String) (polling : Polling) (turns : List Turn) :
    Polling :=
  turns.foldl (take answer) polling

end Polling

namespace Exporting

def polling (exporting : Exporting) : Polling :=
  ⟨exporting.sampling.pollTask, exporting.gathering.metrics?, exporting.nowMs⟩

variable {options : SamplingOptions} {answers : Answers} {exporting : Exporting}

theorem Kept.metrics_advance (kept : exporting.Kept options answers) :
    (exporting.gathering.advance exporting.sampling.feed).metrics? =
      exporting.gathering.metrics?.or
        (if exporting.sampling.feed.metrics.hasNew then some exporting.sampling.feed.metrics.value
        else none) := by
  cases stage : exporting.gathering with
  | atMetrics =>
      obtain ⟨polls, polled⟩ := kept.polled
      have opened : exporting.sampling.feed.metrics.closed = false := polled.opened
      rw [Gathering.advance, opened]
      split <;> rfl
  | atReports metrics =>
      rw [Gathering.advance]
      cases exporting.sampling.feed.reports.settled? <;> rfl
  | atDocuments metrics list =>
      rw [Gathering.advance]
      cases exporting.sampling.feed.documents.settled? <;> rfl
  | atInfo metrics list index =>
      rw [Gathering.advance]
      cases exporting.sampling.feed.info.settled? <;> rfl
  | done metrics list index build => rfl
  | abandoned =>
      have gathered := kept.gathered
      rw [stage] at gathered
      exact gathered.elim

theorem Kept.polling_run (kept : exporting.Kept options answers) (turns : List Turn) :
    (exporting.run answers turns).polling = exporting.polling.run answers.polls turns := by
  induction turns generalizing exporting with
  | nil => rfl
  | cons turn rest ih =>
      have tasks : (exporting.take answers turn).sampling.pollTask = _ :=
        (kept.quiet.move answers exporting.nowMs turn).pollTask
      have step : (exporting.take answers turn).polling =
          exporting.polling.take answers.polls turn := by
        rw [polling, tasks]
        cases turn with
        | look => exact congrArg (Polling.mk _ · _) kept.metrics_advance
        | _ => rfl
      change ((exporting.take answers turn).run answers rest).polling = _
      rw [ih (kept.take turn), step]
      rfl

end Exporting

namespace SourceData

def answers (data : SourceData) : Answers :=
  ⟨fun _ => data.metrics, data.reports, data.documents, data.info⟩

def turns : List Turn :=
  [.reports, .reports, .once .documents, .once .documents, .once .info, .once .info, .metrics,
    .metrics, .metrics].flatMap fun turn => [turn, .look, .look, .look, .look]

end SourceData

/-- The steps are the ones that the tasks take in these turns. -/
def Aligned (answers : Answers) (nowMs : Nat) (sampling : Sampling) :
    List Turn → List TaskStep → Prop
  | [], [] => True
  | turn :: turns, step :: steps =>
    sampling.next? answers nowMs turn = some step ∧
      Aligned answers nowMs (sampling.step step) turns steps
  | _, _ => False

theorem follow_eq_run {answers : Answers} {nowMs : Nat} {turns : List Turn} {steps : List TaskStep}
    (sampling : Sampling) (gathering : Gathering)
    (aligned : Aligned answers nowMs sampling turns steps) :
    gathering.follow sampling steps =
      (Exporting.run answers ⟨sampling, gathering, nowMs⟩
        (turns.flatMap fun turn => [turn, .look, .look, .look, .look])).gathering := by
  induction turns generalizing sampling gathering steps with
  | nil =>
      cases steps with
      | nil => rfl
      | cons step rest => cases aligned
  | cons turn rest ih =>
      cases steps with
      | nil => cases aligned
      | cons step steps =>
          obtain ⟨next, later⟩ := aligned
          have stepped := Sampling.turn_of_next next
          have round : ∀ others, Exporting.run answers ⟨sampling, gathering, nowMs⟩
              ([turn, .look, .look, .look, .look] ++ others) =
                Exporting.run answers ⟨sampling.step step,
                  gathering.advanceAll (sampling.step step).feed, nowMs⟩ others := by
            rw [← stepped]
            -- Steps belong to the turns of tasks only.
            cases turn with
            | look | elapse ms => cases next
            | _ => exact fun _ => rfl
          rw [Gathering.follow, ih _ _ later, List.flatMap_cons, round]

theorem aligned_steps (options : SamplingOptions) (data : SourceData) (nowMs : Nat) :
    Aligned data.answers nowMs (.new options)
      [.reports, .reports, .once .documents, .once .documents, .once .info, .once .info, .metrics,
        .metrics, .metrics]
      (data.steps nowMs) := by
  simp [Aligned, SourceData.steps, SourceData.answers, Answers.once, Sampling.next?, Sampling.step,
    Sampling.new, Feed.new, Sampling.beginReports, Sampling.publishReports, Sampling.finishReports,
    Sampling.startOnce, Sampling.finishOnce, Sampling.setOnceTask, Sampling.onceTask,
    OnceTask.start, OnceTask.finish, OnceTask.leave, Sampling.beginMetrics, Sampling.tick,
    Cadence.isDue]

theorem follow_steps (options : SamplingOptions) (data : SourceData) (nowMs : Nat) :
    Gathering.atMetrics.follow (.new options) (data.steps nowMs) =
      ((Exporting.start options nowMs).run data.answers SourceData.turns).gathering := by
  rw [Exporting.start, SourceData.turns]
  exact follow_eq_run _ _ (aligned_steps options data nowMs)

theorem served_turns : Served SourceData.turns :=
  ⟨SourceData.turns.take 41, SourceData.turns.drop 41, rfl, by decide,
    fun shot => by cases shot <;> decide, by decide, by decide⟩

/-- An export holds settled data. Whatever turns are taken, the gathering is not abandoned, it is
done once each task has had its turns, and when it is done each part is settled by its own fetch:
another outcome of the other fetches leaves it as it is. -/
theorem export_settled (options : SamplingOptions) (answers : Answers) (nowMs : Nat)
    (turns : List Turn) :
    ((Exporting.start options nowMs).run answers turns).gathering ≠ .abandoned ∧
    (Served turns → ∃ metrics reports documents info,
      ((Exporting.start options nowMs).run answers turns).gathering =
        .done metrics reports documents info) ∧
    (∀ metrics reports documents info,
      ((Exporting.start options nowMs).run answers turns).gathering =
        .done metrics reports documents info →
      Reached options answers.polls metrics ∧ reports = settledAs aggregate answers.reports ∧
        documents = settledAs indexDocuments answers.documents ∧
        info = settledAs id answers.info) ∧
    (∀ other : Answers, other.polls = answers.polls →
      ((Exporting.start options nowMs).run other turns).gathering.metrics? =
        ((Exporting.start options nowMs).run answers turns).gathering.metrics?) ∧
    ∀ (data : SourceData) (description : String), ∃ exported,
      data.export? description options nowMs = some exported ∧
        Reached options (fun _ => data.metrics) exported.metrics ∧
        exported.reports = settledAs aggregate data.reports ∧
        exported.documents = settledAs indexDocuments data.documents ∧
        exported.info = settledAs id data.info := by
  have start (answers : Answers) : (Exporting.start options nowMs).Kept options answers :=
    .start options answers nowMs
  refine ⟨fun abandoned => ?_, (start answers).done, fun metrics reports documents info done => ?_,
    fun other same => ?_, fun data description => ?_⟩
  · have gathered := ((start answers).run turns).gathered
    rw [abandoned] at gathered
    exact gathered
  · exact ((start answers).run turns).settled_of_done done
  -- The polls and the turns decide the metrics, and both sources share them.
  · have mine := (start answers).polling_run turns
    have others := (start other).polling_run turns
    rw [same] at others
    exact congrArg Polling.gathered (others.trans mine.symm)
  · obtain ⟨metrics, reports, documents, info, done⟩ := (start data.answers).done served_turns
    have settled := ((start data.answers).run SourceData.turns).settled_of_done done
    refine ⟨⟨description, nowMs, metrics, reports, documents, info⟩, ?_, settled⟩
    unfold SourceData.export?
    rw [follow_steps, done]

def interleavedTurns : List Turn :=
  [.look, .metrics, .once .documents, .reports, .elapse 3, .metrics, .look, .once .info, .reports,
    .once .documents, .metrics, .look, .metrics, .look, .once .info, .reports, .elapse 1, .look,
    .look, .metrics, .look, .look]

def scarceAnswers : Answers where
  polls := fun _ => .error (.endpointUnavailable 503)
  reports := .error .timeout
  documents := .ok []
  info := .error (.decode "EOF while parsing a value at line 1 column 0")

theorem export_settled_interleaved :
    Served interleavedTurns ∧ ∃ metrics,
      ((Exporting.start .default 0).run scarceAnswers interleavedTurns).gathering =
        .done metrics (.failed "Request timed out") (.ready [])
          (.failed "Failed to decode response: EOF while parsing a value at line 1 column 0") ∧
      Reached .default scarceAnswers.polls metrics := by
  have served : Served interleavedTurns :=
    ⟨interleavedTurns.take 15, interleavedTurns.drop 15, rfl, by decide,
      fun shot => by cases shot <;> decide, by decide, by decide⟩
  obtain ⟨-, ends, parts, -⟩ := export_settled .default scarceAnswers 0 interleavedTurns
  obtain ⟨metrics, reports, documents, info, done⟩ := ends served
  obtain ⟨reached, rfl, rfl, rfl⟩ := parts metrics reports documents info done
  exact ⟨served, metrics, done, reached⟩

end ProxyMonitor
