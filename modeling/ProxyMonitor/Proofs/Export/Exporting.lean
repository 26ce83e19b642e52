import ProxyMonitor.Proofs.Export.Turns
import ProxyMonitor.Proofs.Sampling.PollTask

namespace ProxyMonitor

structure Exporting where
  sampling : Sampling
  gathering : Gathering
  nowMs : Nat

namespace Exporting

def start (options : SamplingOptions) (nowMs : Nat) : Exporting :=
  ⟨.new options, .atMetrics, nowMs⟩

def take (answers : Answers) (exporting : Exporting) (turn : Turn) : Exporting where
  sampling := exporting.sampling.turn answers exporting.nowMs turn
  gathering := match turn with
    | .look => exporting.gathering.advance exporting.sampling.feed
    | _ => exporting.gathering
  nowMs := match turn with
    | .elapse ms => exporting.nowMs + ms
    | _ => exporting.nowMs

def run (answers : Answers) (exporting : Exporting) (turns : List Turn) : Exporting :=
  turns.foldl (take answers) exporting

end Exporting

/-- What the channel of a fetch holds: nothing before the fetch has ended, its outcome after. -/
inductive Tells {α : Type} (outcome : Fetched α) : TaskPhase → Channel (Fetched α) → Prop where
  | before {phase : TaskPhase} {channel : Channel (Fetched α)}
      (underWay : phase = .unstarted ∨ phase = .fetching) (pending : channel.value = .pending)
      (opened : channel.closed = false) : Tells outcome phase channel
  | after {phase : TaskPhase} {channel : Channel (Fetched α)}
      (ended : phase = .waiting ∨ phase = .ended) (told : channel.value = outcome) :
      Tells outcome phase channel

section

variable {α : Type} {outcome : Fetched α} {phase : TaskPhase} {channel : Channel (Fetched α)}

theorem Tells.settled (h : Tells outcome phase channel) (known : outcome.isPending = false) :
    channel.settled? = if phase = .waiting ∨ phase = .ended then some outcome else none := by
  cases h with
  | before underWay pending opened =>
      have early : ¬ (phase = .waiting ∨ phase = .ended) := by
        rcases underWay with rfl | rfl <;> decide
      rw [if_neg early, Channel.settled?, pending, opened]
      rfl
  | after ended told => rw [if_pos ended, Channel.settled?, told, known]; rfl

theorem Tells.unsettled (h : Tells outcome phase channel) (unstarted : phase = .unstarted) :
    channel.value = .pending ∧ channel.closed = false := by
  cases h with
  | before _ pending opened => exact ⟨pending, opened⟩
  | after ended _ =>
      subst unstarted
      rcases ended with ended | ended <;> cases ended

theorem Tells.begin (h : Tells outcome phase channel) (unstarted : phase = .unstarted) :
    Tells outcome .fetching channel := by
  obtain ⟨pending, opened⟩ := h.unsettled unstarted
  exact .before (.inr rfl) pending opened

end

def PollTask.turn (answer : Nat → Except FetchError String) (nowMs : Nat) (task : PollTask) :
    PollTask :=
  match task.phase with
  | .unstarted => { task with phase := .waiting, cadence := { task.cadence with dueMs := nowMs } }
  | .waiting =>
    if task.cadence.isDue nowMs then
      { task with phase := .fetching, cadence := task.cadence.fire nowMs, begun := task.begun + 1 }
    else task
  | .fetching =>
    let sampler := task.sampler.apply (answer (task.begun - 1)) nowMs
    { task with phase := .waiting, sampler, channel := task.channel.publish sampler.state }
  | .ended => task

section

variable {answer : Nat → Except FetchError String} {nowMs : Nat} {task : PollTask}

theorem PollTask.turn_unstarted (unstarted : task.phase = .unstarted) :
    task.turn answer nowMs =
      { task with phase := .waiting, cadence := { task.cadence with dueMs := nowMs } } := by
  rw [turn, unstarted]

theorem PollTask.turn_due (waiting : task.phase = .waiting)
    (due : task.cadence.isDue nowMs = true) :
    task.turn answer nowMs =
      { task with
        phase := .fetching
        cadence := task.cadence.fire nowMs
        begun := task.begun + 1 } := by
  rw [turn, waiting]
  exact if_pos due

theorem PollTask.turn_early (waiting : task.phase = .waiting)
    (early : task.cadence.isDue nowMs = false) : task.turn answer nowMs = task := by
  rw [turn, waiting]
  exact if_neg (Bool.eq_false_iff.mp early)

theorem PollTask.turn_fetching (fetching : task.phase = .fetching) {sampler : Sampler}
    (applied : sampler = task.sampler.apply (answer (task.begun - 1)) nowMs) :
    task.turn answer nowMs =
      { task with phase := .waiting, sampler, channel := task.channel.publish sampler.state } := by
  rw [turn, fetching, applied]

theorem PollTask.turn_ended (ended : task.phase = .ended) : task.turn answer nowMs = task := by
  rw [turn, ended]

end

theorem Sampling.Move.pollTask_metrics {answers : Answers} {nowMs : Nat}
    {sampling later : Sampling} (move : sampling.Move answers nowMs .metrics later) :
    sampling.pollTask.turn answers.polls nowMs = later.pollTask := by
  cases move with
  | beginMetrics unstarted => exact PollTask.turn_unstarted unstarted
  | fire waiting due => exact PollTask.turn_due waiting due
  | wait waiting early => exact PollTask.turn_early waiting early
  | poll fetching applied => exact PollTask.turn_fetching fetching applied
  | restMetrics ended => exact PollTask.turn_ended ended

theorem Sampling.Move.pollTask {answers : Answers} {nowMs : Nat} {sampling later : Sampling}
    {turn : Turn} (move : sampling.Move answers nowMs turn later) :
    later.pollTask =
      if turn = .metrics then sampling.pollTask.turn answers.polls nowMs
      else sampling.pollTask := by
  by_cases own : turn = .metrics
  · subst own
    rw [if_pos rfl, move.pollTask_metrics]
  · rw [if_neg own]
    cases move with
    | beginMetrics | fire | wait | poll | restMetrics => exact absurd rfl own
    | beginOnce shot | settleOnce shot => cases shot <;> rfl
    | _ => rfl

structure Polled (answer : Nat → Except FetchError String) (sampler : Sampler) (polls : List Poll)
    (nowMs : Nat) (task : PollTask) : Prop where
  results : polls.map Poll.result = (List.range polls.length).map answer
  sampled : task.sampler = sampler.run polls
  counted : task.channel.published = polls.length
  unseen : task.channel.seen = 0
  opened : task.channel.closed = false
  told : polls ≠ [] → task.channel.value = task.sampler.state
  resting : task.phase ≠ .fetching → task.begun = polls.length
  fetching : task.phase = .fetching → task.begun = polls.length + 1
  lasting : task.phase ≠ .ended
  due : task.phase = .waiting → polls = [] → task.cadence.dueMs ≤ nowMs

namespace Polled

variable {answer : Nat → Except FetchError String} {sampler : Sampler} {polls : List Poll}
  {nowMs : Nat} {task : PollTask}

theorem elapse (h : Polled answer sampler polls nowMs task) (ms : Nat) :
    Polled answer sampler polls (nowMs + ms) task :=
  { h with due := fun waiting none => Nat.le_add_right_of_le (h.due waiting none) }

theorem poll (h : Polled answer sampler polls nowMs task) (fetching : task.phase = .fetching) :
    Polled answer sampler (polls ++ [⟨answer polls.length, nowMs⟩]) nowMs
      (task.turn answer nowMs) := by
  have number : task.begun - 1 = polls.length := by rw [h.fetching fetching, Nat.add_sub_cancel]
  have applied : sampler.run (polls ++ [⟨answer polls.length, nowMs⟩]) =
      task.sampler.apply (answer (task.begun - 1)) nowMs := by
    rw [Sampler.run, List.foldl_append, number, h.sampled]
    rfl
  rw [PollTask.turn_fetching fetching applied]
  have longer (poll : Poll) : (polls ++ [poll]).length = polls.length + 1 := by
    rw [List.length_append, List.length_singleton]
  exact {
    results := by
      rw [longer, List.map_append, h.results, List.range_succ, List.map_append]
      rfl
    sampled := rfl
    counted := by
      rw [longer]
      exact congrArg (· + 1) h.counted
    unseen := h.unseen
    opened := h.opened
    told := fun _ => rfl
    resting := fun _ => (h.fetching fetching).trans (longer _).symm
    fetching := by
      intro same
      cases same
    lasting := by
      intro same
      cases same
    due := fun _ none => absurd none (List.append_ne_nil_of_right_ne_nil _ (List.cons_ne_nil _ _)) }

theorem turn (h : Polled answer sampler polls nowMs task) :
    ∃ polls, Polled answer sampler polls nowMs (task.turn answer nowMs) := by
  cases phase : task.phase with
  | unstarted =>
      have begun := h.resting (by rw [phase]; decide)
      rw [PollTask.turn_unstarted phase]
      exact ⟨polls, { h with
        resting := fun _ => begun
        fetching := nofun
        lasting := nofun
        due := fun _ _ => Nat.le_refl nowMs }⟩
  | waiting =>
      cases due : task.cadence.isDue nowMs with
      | false =>
          rw [PollTask.turn_early phase due]
          exact ⟨polls, h⟩
      | true =>
          -- A fetch has begun and its poll is not made: `begun` is one ahead of the polls.
          have begun := h.resting (by rw [phase]; decide)
          rw [PollTask.turn_due phase due]
          exact ⟨polls, { h with
            resting := fun resting => absurd rfl resting
            fetching := fun _ => congrArg (· + 1) begun
            lasting := nofun
            due := nofun }⟩
  | fetching => exact ⟨_, h.poll phase⟩
  | ended => exact absurd phase h.lasting

end Polled

/-- A poll that brought families shows in the state as such, a failed one by its message. -/
def Poll.ShownBy (poll : Poll) (state : MetricsState) : Prop :=
  match poll.outcome with
  | .ok (families, _) =>
    state.availability = .available ∧ state.families = families ∧ state.lastError = none
  | .error error => state.lastError = some error.message

/-- The state after one poll or more, each with the answer that has its number. -/
def Reached (options : SamplingOptions) (answer : Nat → Except FetchError String)
    (state : MetricsState) : Prop :=
  ∃ (earlier : List Poll) (last : Poll),
    (earlier ++ [last]).map Poll.result = (List.range (earlier.length + 1)).map answer ∧
      state = ((Sampler.new options.history).run (earlier ++ [last])).state ∧
      state.sequence = earlier.length + 1 ∧ last.ShownBy state

theorem MetricsState.shownBy_advance (state : MetricsState) (poll : Poll) :
    poll.ShownBy (state.advance poll) := by
  rw [Poll.ShownBy, advance]
  cases poll.outcome with
  | ok brought => exact ⟨rfl, rfl, rfl⟩
  | error error => rfl

theorem Sampler.run_sequence (sampler : Sampler) (polls : List Poll) :
    (sampler.run polls).state.sequence = sampler.state.sequence + polls.length := by
  induction polls generalizing sampler with
  | nil => rfl
  | cons poll rest ih =>
      rw [run, List.foldl_cons, ← run, ih, apply_state, MetricsState.advance_sequence,
        List.length_cons, Nat.add_right_comm, Nat.add_assoc]

theorem Polled.reached {options : SamplingOptions} {answer : Nat → Except FetchError String}
    {polls : List Poll} {nowMs : Nat} {task : PollTask}
    (h : Polled answer (.new options.history) polls nowMs task) (made : polls ≠ []) :
    Reached options answer task.channel.value := by
  have results := h.results
  have state := (h.told made).trans (congrArg Sampler.state h.sampled)
  obtain ⟨earlier, last, rfl⟩ : ∃ earlier last, polls = earlier ++ [last] :=
    ⟨_, _, (List.dropLast_concat_getLast made).symm⟩
  have count := Sampler.run_sequence (.new options.history) (earlier ++ [last])
  rw [List.length_append, List.length_singleton] at results count
  refine ⟨earlier, last, results, state, ?_, ?_⟩
  · rw [state, count]
    exact Nat.zero_add _
  · rw [state, Sampler.run_state, List.foldl_append]
    exact MetricsState.shownBy_advance _ last

namespace Gathering

def Settled (options : SamplingOptions) (answers : Answers) : Gathering → Prop
  | atMetrics => True
  | atReports metrics => Reached options answers.polls metrics
  | atDocuments metrics reports =>
    Reached options answers.polls metrics ∧ reports = settledAs aggregate answers.reports
  | atInfo metrics reports documents =>
    Reached options answers.polls metrics ∧ reports = settledAs aggregate answers.reports ∧
      documents = settledAs indexDocuments answers.documents
  | done metrics reports documents info =>
    Reached options answers.polls metrics ∧ reports = settledAs aggregate answers.reports ∧
      documents = settledAs indexDocuments answers.documents ∧ info = settledAs id answers.info
  | abandoned => False

end Gathering

abbrev Sampling.TellsOnce (sampling : Sampling) (answers : Answers) (shot : OneShot) : Prop :=
  Tells (settledAs shot.prepare (answers.once shot)) (sampling.onceTask shot).phase
    (sampling.onceTask shot).channel

/-- What holds after any turns. -/
structure Exporting.Kept (options : SamplingOptions) (answers : Answers) (exporting : Exporting) :
    Prop where
  quiet : exporting.sampling.Quiet
  reports : Tells (settledAs aggregate answers.reports) exporting.sampling.reports
    exporting.sampling.feed.reports
  once : ∀ shot, exporting.sampling.TellsOnce answers shot
  polled : ∃ polls, Polled answers.polls (.new options.history) polls exporting.nowMs
    exporting.sampling.pollTask
  gathered : exporting.gathering.Settled options answers

section

variable {options : SamplingOptions} {answers : Answers} {nowMs : Nat} {sampling later : Sampling}
  {turn : Turn} {exporting : Exporting}

theorem Sampling.Move.quiet (move : sampling.Move answers nowMs turn later)
    (quiet : sampling.Quiet) : later.Quiet := by
  obtain ⟨running, heard, idle⟩ := quiet
  cases move with
  | beginOnce shot | settleOnce shot => cases shot <;> exact ⟨running, heard, idle⟩
  | _ => exact ⟨running, heard, idle⟩

theorem Sampling.Move.reports (move : sampling.Move answers nowMs turn later)
    (tells : Tells (settledAs aggregate answers.reports) sampling.reports sampling.feed.reports) :
    Tells (settledAs aggregate answers.reports) later.reports later.feed.reports := by
  cases move with
  | beginReports unstarted => exact .before (.inr rfl) rfl (tells.unsettled unstarted).2
  | settleReports fetching => exact .after (.inl rfl) rfl
  | beginOnce shot | settleOnce shot => cases shot <;> exact tells
  | _ => exact tells

theorem Sampling.Move.once (move : sampling.Move answers nowMs turn later) (shot : OneShot)
    (tells : sampling.TellsOnce answers shot) : later.TellsOnce answers shot := by
  cases move with
  | beginOnce other unstarted =>
      by_cases own : shot = other
      · subst own
        rw [Sampling.TellsOnce, Sampling.onceTask_setOnceTask]
        exact tells.begin unstarted
      · rwa [Sampling.TellsOnce, Sampling.onceTask_setOnceTask_of_ne _ own]
  | settleOnce other fetching =>
      by_cases own : shot = other
      · subst own
        rw [Sampling.TellsOnce, Sampling.onceTask_setOnceTask]
        exact .after (.inr rfl) rfl
      · rwa [Sampling.TellsOnce, Sampling.onceTask_setOnceTask_of_ne _ own]
  | _ => cases shot <;> exact tells

namespace Exporting.Kept

theorem advance (kept : exporting.Kept options answers) :
    (exporting.gathering.advance exporting.sampling.feed).Settled options answers := by
  obtain ⟨polls, polled⟩ := kept.polled
  have gathered := kept.gathered
  have reports := kept.reports.settled (isPending_settledAs _ _)
  have documents := (kept.once .documents).settled (isPending_settledAs _ _)
  have info := (kept.once .info).settled (isPending_settledAs _ _)
  cases stage : exporting.gathering with
  | atMetrics =>
      rw [Gathering.advance]
      split
      next new =>
        -- A new value is there only after a poll: nobody has seen the channel before.
        refine polled.reached ?_
        rintro rfl
        have none : exporting.sampling.feed.metrics.published = 0 := polled.counted
        have unseen : exporting.sampling.feed.metrics.seen = 0 := polled.unseen
        rw [Channel.hasNew, none, unseen] at new
        cases new
      next =>
        have opened : exporting.sampling.feed.metrics.closed = false := polled.opened
        rw [opened]
        trivial
  | atReports metrics =>
      rw [stage] at gathered
      rw [Gathering.advance, reports]
      split
      · exact ⟨gathered, rfl⟩
      · exact gathered
  | atDocuments metrics list =>
      rw [stage] at gathered
      rw [Gathering.advance, show exporting.sampling.feed.documents.settled? = _ from documents]
      split
      · exact ⟨gathered.1, gathered.2, rfl⟩
      · exact gathered
  | atInfo metrics list index =>
      rw [stage] at gathered
      rw [Gathering.advance, show exporting.sampling.feed.info.settled? = _ from info]
      split
      · exact ⟨gathered.1, gathered.2.1, gathered.2.2, rfl⟩
      · exact gathered
  | done metrics list index build =>
      rw [stage] at gathered
      exact gathered
  | abandoned =>
      rw [stage] at gathered
      exact gathered

theorem take (kept : exporting.Kept options answers) (turn : Turn) :
    (exporting.take answers turn).Kept options answers := by
  have move := kept.quiet.move answers exporting.nowMs turn
  obtain ⟨polls, polled⟩ := kept.polled
  exact {
    quiet := move.quiet kept.quiet
    reports := move.reports kept.reports
    once := fun shot => move.once shot (kept.once shot)
    polled := by
      have tasks : (exporting.take answers turn).sampling.pollTask = _ := move.pollTask
      rw [tasks]
      cases turn with
      | metrics => exact polled.turn
      | elapse ms => exact ⟨polls, polled.elapse ms⟩
      | _ => exact ⟨polls, polled⟩
    gathered := by
      cases turn with
      | look => exact kept.advance
      | _ => exact kept.gathered }

theorem start (options : SamplingOptions) (answers : Answers) (nowMs : Nat) :
    (Exporting.start options nowMs).Kept options answers where
  quiet := ⟨rfl, rfl, rfl⟩
  reports := .before (.inl rfl) rfl rfl
  once := fun shot => by cases shot <;> exact .before (.inl rfl) rfl rfl
  polled := ⟨[], {
    results := rfl
    sampled := rfl
    counted := rfl
    unseen := rfl
    opened := rfl
    told := fun made => absurd rfl made
    resting := fun _ => rfl
    fetching := nofun
    lasting := nofun
    due := nofun }⟩
  gathered := trivial

theorem run (kept : exporting.Kept options answers) (turns : List Turn) :
    (exporting.run answers turns).Kept options answers := by
  induction turns generalizing exporting with
  | nil => exact kept
  | cons turn rest ih => exact ih (kept.take turn)

end Exporting.Kept

end

end ProxyMonitor
