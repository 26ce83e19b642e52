import ProxyMonitor.Proofs.Sampling.PollTask
import ProxyMonitor.Proofs.Sampling.Shutdown
import Mathlib.Data.List.Chain
import Mathlib.Data.List.ModifyLast

/-! The cadence of the polls on a virtual clock: the first one begins at once, each later one when
the one before has been told, and a period after that began, up to the tolerance of the timer. -/

namespace ProxyMonitor

structure PollTimes where
  begunMs : Nat
  toldMs : Option Nat
  deriving DecidableEq

structure PollClock where
  sampling : Sampling
  nowMs : Nat
  polls : List PollTimes

inductive ClockEvent where
  | elapse (ms : Nat)
  | happen (event : SamplingEvent)

def TaskStep.at (nowMs : Nat) : TaskStep → TaskStep
  | .startMetrics _ => .startMetrics nowMs
  | .tick _ => .tick nowMs
  | .finishMetrics result _ => .finishMetrics result nowMs
  | step => step

def SamplingEvent.at (nowMs : Nat) : SamplingEvent → SamplingEvent
  | .task step => .task (step.at nowMs)
  | event => event

def PollTask.note (nowMs : Nat) (task later : PollTask) (polls : List PollTimes) :
    List PollTimes :=
  let polls := if later.begun = task.begun then polls else polls ++ [⟨nowMs, none⟩]
  if later.channel.published = task.channel.published then polls
  else polls.modifyLast fun poll => { poll with toldMs := some nowMs }

/-- What a virtual clock shows after a while: it stands still while the poll task can go on, and a
fetch may take any time. -/
def PollTask.timeAfter (nowMs ms : Nat) (task : PollTask) : Nat :=
  match task.phase with
  | .unstarted => nowMs
  | .waiting => max nowMs (min (nowMs + ms) task.cadence.dueMs)
  | .fetching | .ended => nowMs + ms

namespace PollClock

def new (options : SamplingOptions) : PollClock := ⟨.new options, 0, []⟩

def after (clock : PollClock) : ClockEvent → PollClock
  | .elapse ms => { clock with nowMs := clock.sampling.pollTask.timeAfter clock.nowMs ms }
  | .happen event =>
    let later := clock.sampling.after (event.at clock.nowMs)
    { clock with
      sampling := later
      polls := clock.sampling.pollTask.note clock.nowMs later.pollTask clock.polls }

def run (clock : PollClock) (events : List ClockEvent) : PollClock := events.foldl after clock

end PollClock

inductive PollTask.Move (stopped : Bool) (nowMs : Nat) (task : PollTask) : PollTask → Prop where
  | still : Move stopped nowMs task task
  | start (unstarted : task.phase = .unstarted) :
      Move stopped nowMs task
        { task with phase := .waiting, cadence := { task.cadence with dueMs := nowMs } }
  | begin (waiting : task.phase = .waiting) (due : task.cadence.dueMs ≤ nowMs) :
      Move stopped nowMs task
        { task with
          phase := .fetching, cadence := task.cadence.fire nowMs, begun := task.begun + 1 }
  | tell (fetching : task.phase = .fetching) (sampler : Sampler) :
      Move stopped nowMs task
        { task with
          phase := .waiting, sampler, channel := task.channel.publish sampler.state }
  | finish (reason : task.phase = .fetching ∨ stopped = true) (sampler : Sampler) :
      Move stopped nowMs task
        { task with phase := .ended, sampler, channel := task.channel.close }

theorem PollTask.Move.of_same {stopped : Bool} {nowMs : Nat} {task later : PollTask}
    (same : later = task) : task.Move stopped nowMs later :=
  same ▸ .still

namespace Sampling

variable {sampling : Sampling} {nowMs : Nat}

theorem pollMove_guarded {here : Prop} [Decidable here] {later : Sampling}
    (move : here → sampling.pollTask.Move sampling.stopped nowMs later.pollTask) :
    sampling.pollTask.Move sampling.stopped nowMs (if here then later else sampling).pollTask := by
  split
  next given => exact move given
  next => exact .still

theorem pollMove_tick (sampling : Sampling) (waiting : sampling.metrics = .waiting) :
    sampling.pollTask.Move sampling.stopped nowMs (sampling.tick nowMs).pollTask := by
  rw [tick]
  split
  next stopped => exact .finish (.inr stopped) _
  next => exact pollMove_guarded fun due => .begin waiting (of_decide_eq_true due)

theorem pollMove_finish (sampling : Sampling) (fetching : sampling.metrics = .fetching)
    (result : Except FetchError String) :
    sampling.pollTask.Move sampling.stopped nowMs (sampling.finishMetrics result nowMs).pollTask := by
  rw [finishMetrics]
  split
  · exact .finish (.inl fetching) _
  · dsimp only
    split
    · exact .finish (.inl fetching) _
    · exact .tell fetching _

theorem pollMove_step (sampling : Sampling) (step : TaskStep) :
    sampling.pollTask.Move sampling.stopped nowMs (sampling.step (step.at nowMs)).pollTask := by
  cases step with
  | startMetrics => exact pollMove_guarded fun unstarted => .start unstarted
  | tick => exact pollMove_guarded sampling.pollMove_tick
  | finishMetrics result =>
      exact pollMove_guarded fun fetching => sampling.pollMove_finish fetching result
  | _ => exact .of_same (sampling.pollTask_step_of_other rfl)

theorem pollMove_after (sampling : Sampling) (event : SamplingEvent) :
    sampling.pollTask.Move sampling.stopped nowMs (sampling.after (event.at nowMs)).pollTask := by
  cases event with
  | task step => exact sampling.pollMove_step step
  | requestReports =>
      simp only [SamplingEvent.at, after, Feed.requestReports]
      split
      · exact .still
      · split <;> exact .still
  | stop | dropFeed => exact .still

end Sampling

/-- One poll is told before the next one begins. That is a period after it began or, if it took
longer, when it was told; the tolerance of the timer may come off. -/
structure PollTimes.Precedes (periodMs : Nat) (first second : PollTimes) : Prop where
  told : ∃ toldMs, first.toldMs = some toldMs ∧ first.begunMs ≤ toldMs ∧ toldMs ≤ second.begunMs ∧
    second.begunMs ≤ max toldMs (first.begunMs + periodMs)
  spaced : first.begunMs + periodMs ≤ second.begunMs + 5

/-- The next poll is planned a period after one that began at `begunMs`, up to the tolerance. -/
structure Cadence.Follows (periodMs begunMs : Nat) (cadence : Cadence) : Prop where
  period : cadence.periodMs = periodMs
  spaced : begunMs + periodMs ≤ cadence.dueMs + 5
  planned : cadence.dueMs ≤ begunMs + periodMs

theorem Cadence.follows_fire {cadence : Cadence} {periodMs nowMs : Nat}
    (period : cadence.periodMs = periodMs) (due : cadence.dueMs ≤ nowMs) :
    (cadence.fire nowMs).Follows periodMs nowMs := by
  refine ⟨period, ?_, ?_⟩ <;>
  · rw [fire, toleranceMs, period]
    dsimp only
    split <;> omega

/-- Where the poll task stands with the polls that were made. -/
inductive PollTask.Stands (periodMs : Nat) (stopped : Bool) (nowMs : Nat) (task : PollTask) :
    List PollTimes → Prop where
  | unstarted (phase : task.phase = .unstarted) (period : task.cadence.periodMs = periodMs)
      (start : nowMs = 0) : Stands periodMs stopped nowMs task []
  | ready (phase : task.phase = .waiting) (period : task.cadence.periodMs = periodMs)
      (due : task.cadence.dueMs = 0) (start : nowMs = 0) : Stands periodMs stopped nowMs task []
  | fetching {earlier : List PollTimes} {begunMs : Nat} (phase : task.phase = .fetching)
      (begun : begunMs ≤ nowMs) (next : task.cadence.Follows periodMs begunMs) :
      Stands periodMs stopped nowMs task (earlier ++ [⟨begunMs, none⟩])
  | waiting {earlier : List PollTimes} {begunMs toldMs : Nat} (phase : task.phase = .waiting)
      (begun : begunMs ≤ toldMs) (told : toldMs ≤ nowMs)
      (prompt : nowMs ≤ max toldMs task.cadence.dueMs)
      (next : task.cadence.Follows periodMs begunMs) :
      Stands periodMs stopped nowMs task (earlier ++ [⟨begunMs, some toldMs⟩])
  | ended {polls : List PollTimes} (phase : task.phase = .ended)
      (reason : polls = [] → stopped = true) : Stands periodMs stopped nowMs task polls

structure PollTask.Paced (periodMs : Nat) (stopped : Bool) (nowMs : Nat) (task : PollTask)
    (polls : List PollTimes) : Prop where
  stands : task.Stands periodMs stopped nowMs polls
  spaced : polls.IsChain (PollTimes.Precedes periodMs)
  first : ∀ poll ∈ polls.head?, poll.begunMs = 0

section

variable {periodMs nowMs : Nat} {stopped : Bool} {task later : PollTask}
  {earlier polls : List PollTimes} {last next : PollTimes}

theorem PollTimes.Precedes.chain (spaced : (earlier ++ [last]).IsChain (Precedes periodMs))
    (precedes : last.Precedes periodMs next) :
    (earlier ++ [last] ++ [next]).IsChain (Precedes periodMs) := by
  refine spaced.append (.singleton next) fun a lastOf b firstOf => ?_
  rw [List.getLast?_concat, Option.mem_some_iff] at lastOf
  rw [List.head?_singleton, Option.mem_some_iff] at firstOf
  exact lastOf ▸ firstOf ▸ precedes

theorem PollTimes.chain_told (spaced : (earlier ++ [last]).IsChain (Precedes periodMs))
    (same : next.begunMs = last.begunMs) : (earlier ++ [next]).IsChain (Precedes periodMs) := by
  obtain ⟨before, -, link⟩ := List.isChain_append.mp spaced
  refine before.append (.singleton next) fun a lastOf b firstOf => ?_
  rw [List.head?_singleton, Option.mem_some_iff] at firstOf
  obtain ⟨told, gap⟩ := link a lastOf last (by simp)
  rw [← same, firstOf] at told gap
  exact ⟨told, gap⟩

namespace PollTask

theorem note_of_same (begun : later.begun = task.begun)
    (told : later.channel.published = task.channel.published) :
    task.note nowMs later polls = polls := by
  rw [note, if_pos told, if_pos begun]

theorem note_of_begun (begun : later.begun = task.begun + 1)
    (told : later.channel.published = task.channel.published) :
    task.note nowMs later polls = polls ++ [⟨nowMs, none⟩] := by
  have another : later.begun ≠ task.begun := begun ▸ Nat.succ_ne_self task.begun
  rw [note, if_pos told, if_neg another]

theorem note_of_told (begun : later.begun = task.begun)
    (told : later.channel.published = task.channel.published + 1) :
    task.note nowMs later (earlier ++ [last]) =
      earlier ++ [{ last with toldMs := some nowMs }] := by
  have another : later.channel.published ≠ task.channel.published :=
    told ▸ Nat.succ_ne_self task.channel.published
  rw [note, if_neg another, if_pos begun, List.modifyLast_concat]

theorem Stands.ne_nil (h : task.Stands periodMs stopped nowMs polls)
    (fetching : task.phase = .fetching) : polls ≠ [] := by
  cases h with
  | unstarted phase | ready phase | waiting phase | ended phase =>
      exact nomatch fetching.symm.trans phase
  | fetching => exact List.append_ne_nil_of_right_ne_nil _ (List.cons_ne_nil _ _)

theorem Paced.of_same (begun : later.begun = task.begun)
    (told : later.channel.published = task.channel.published)
    (h : later.Paced periodMs stopped nowMs polls) :
    later.Paced periodMs stopped nowMs (task.note nowMs later polls) := by
  rwa [note_of_same begun told]

theorem Paced.begin (h : task.Paced periodMs stopped nowMs polls)
    (waiting : task.phase = .waiting) (due : task.cadence.dueMs ≤ nowMs)
    (fetching : later.phase = .fetching) (fired : later.cadence = task.cadence.fire nowMs)
    (begun : later.begun = task.begun + 1)
    (told : later.channel.published = task.channel.published) :
    later.Paced periodMs stopped nowMs (task.note nowMs later polls) := by
  rw [note_of_begun begun told]
  obtain ⟨stands, spaced, first⟩ := h
  cases stands with
  | unstarted phase | fetching phase | ended phase => exact nomatch waiting.symm.trans phase
  | ready _ period _ start =>
      refine ⟨?_, .singleton _, ?_⟩
      · exact @PollTask.Stands.fetching _ _ _ _ [] nowMs fetching (Nat.le_refl _)
          (fired ▸ Cadence.follows_fire period due)
      · simp [start]
  | @waiting earlier begunMs toldMs _ begun told prompt next =>
      -- The poll is due by the plan, and the plan keeps the period up to the tolerance.
      have precedes : PollTimes.Precedes periodMs ⟨begunMs, some toldMs⟩ ⟨nowMs, none⟩ := by
        obtain ⟨-, gap, planned⟩ := next
        refine ⟨⟨toldMs, rfl, begun, told, ?_⟩, ?_⟩ <;>
        · dsimp only
          omega
      refine ⟨?_, precedes.chain spaced, ?_⟩
      · exact .fetching fetching (Nat.le_refl _) (fired ▸ Cadence.follows_fire next.period due)
      · simpa using first

theorem Paced.tell (h : task.Paced periodMs stopped nowMs polls)
    (fetching : task.phase = .fetching) (waiting : later.phase = .waiting)
    (kept : later.cadence = task.cadence) (begun : later.begun = task.begun)
    (told : later.channel.published = task.channel.published + 1) :
    later.Paced periodMs stopped nowMs (task.note nowMs later polls) := by
  obtain ⟨stands, spaced, first⟩ := h
  cases stands with
  | unstarted phase | ready phase | waiting phase | ended phase =>
      exact nomatch fetching.symm.trans phase
  | @fetching earlier _ _ past next =>
      rw [note_of_told begun told]
      refine ⟨?_, PollTimes.chain_told spaced rfl, ?_⟩
      · exact .waiting waiting past (Nat.le_refl _) (Nat.le_max_left _ _) (kept ▸ next)
      · cases earlier <;> simpa using first

theorem Paced.move (h : task.Paced periodMs stopped nowMs polls)
    (move : task.Move stopped nowMs later) :
    later.Paced periodMs stopped nowMs (task.note nowMs later polls) := by
  cases move with
  | still => exact .of_same rfl rfl h
  | start unstarted =>
      obtain ⟨stands, spaced, first⟩ := h
      cases stands with
      | ready phase | fetching phase | waiting phase | ended phase =>
          exact nomatch unstarted.symm.trans phase
      | unstarted _ period start =>
          exact .of_same rfl rfl ⟨.ready rfl period start start, spaced, first⟩
  | begin waiting due => exact h.begin waiting due rfl rfl rfl rfl
  | tell fetching sampler => exact h.tell fetching rfl rfl rfl rfl
  | finish reason sampler =>
      have explained (none : polls = []) : stopped = true :=
        reason.resolve_left fun fetching => h.stands.ne_nil fetching none
      exact .of_same rfl rfl ⟨.ended rfl explained, h.spaced, h.first⟩

theorem Stands.elapse (h : task.Stands periodMs stopped nowMs polls) (ms : Nat) :
    task.Stands periodMs stopped (task.timeAfter nowMs ms) polls := by
  rw [timeAfter]
  cases h with
  | unstarted phase period start =>
      rw [phase]
      exact .unstarted phase period start
  | ready phase period due start =>
      rw [phase, due, start]
      exact .ready phase period due (Nat.max_eq_left (Nat.min_le_right _ _))
  | fetching phase begun next =>
      rw [phase]
      exact .fetching phase (Nat.le_add_right_of_le begun) next
  | waiting phase begun told prompt next =>
      rw [phase]
      refine .waiting phase begun (Nat.le_trans told (Nat.le_max_left _ _)) ?_ next
      dsimp only
      omega
  | ended phase reason => exact .ended phase reason

theorem Stands.of_stopped {stopped later : Bool} (h : task.Stands periodMs stopped nowMs polls)
    (stays : stopped = true → later = true) : task.Stands periodMs later nowMs polls := by
  cases h with
  | unstarted phase period start => exact .unstarted phase period start
  | ready phase period due start => exact .ready phase period due start
  | fetching phase begun next => exact .fetching phase begun next
  | waiting phase begun told prompt next => exact .waiting phase begun told prompt next
  | ended phase reason => exact .ended phase (stays ∘ reason)

end PollTask

end

namespace PollClock

variable {clock : PollClock} {periodMs : Nat}

def Paced (periodMs : Nat) (clock : PollClock) : Prop :=
  clock.sampling.pollTask.Paced periodMs clock.sampling.stopped clock.nowMs clock.polls

theorem paced_new (options : SamplingOptions) : (new options).Paced options.history.periodMs :=
  ⟨.unstarted rfl rfl rfl, .nil, by simp [new]⟩

theorem Paced.happen (h : clock.Paced periodMs) (event : SamplingEvent) :
    (clock.after (.happen event)).Paced periodMs := by
  have stays (stopped : clock.sampling.stopped = true) :
      (clock.sampling.after (event.at clock.nowMs)).stopped = true :=
    ((clock.sampling.move_after (event.at clock.nowMs)).closing stopped).1
  obtain ⟨stands, spaced, first⟩ := PollTask.Paced.move h (clock.sampling.pollMove_after event)
  exact ⟨stands.of_stopped stays, spaced, first⟩

theorem Paced.run (h : clock.Paced periodMs) (events : List ClockEvent) :
    (clock.run events).Paced periodMs := by
  induction events generalizing clock with
  | nil => exact h
  | cons event rest ih =>
      cases event with
      | elapse ms => exact ih ⟨h.stands.elapse ms, h.spaced, h.first⟩
      | happen event => exact ih (h.happen event)

/-- With its next turn the poll task begins a poll at the present time. -/
def BeginsNow (clock : PollClock) : Prop :=
  (clock.after (.happen (.task (.tick clock.nowMs)))).polls =
    clock.polls ++ [⟨clock.nowMs, none⟩]

theorem beginsNow_of_due (waiting : clock.sampling.metrics = .waiting)
    (running : clock.sampling.stopped = false)
    (due : clock.sampling.cadence.dueMs ≤ clock.nowMs) : clock.BeginsNow := by
  have going : ¬ clock.sampling.stopped = true := running ▸ Bool.false_ne_true
  have fired : clock.sampling.step (.tick clock.nowMs) = _ :=
    (if_pos waiting).trans ((if_neg going).trans (if_pos (decide_eq_true due)))
  have begun : (clock.sampling.step (.tick clock.nowMs)).pollTask.begun =
      clock.sampling.pollTask.begun + 1 := by rw [fired]; rfl
  have told : (clock.sampling.step (.tick clock.nowMs)).pollTask.channel.published =
      clock.sampling.pollTask.channel.published := by rw [fired]; rfl
  exact PollTask.note_of_begun begun told

/-- The first poll of a sampling begins at once, and each later one as soon as the one before has
been told and a period has passed, up to the tolerance of the timer. -/
theorem polls_paced (options : SamplingOptions) (events : List ClockEvent) :
    let clock := (new options).run events
    (clock.polls = [] → clock.sampling.metrics = .waiting → clock.sampling.stopped = false →
        clock.BeginsNow) ∧
      (0 < clock.nowMs → clock.polls ≠ [] ∨ clock.sampling.stopped = true) ∧
      (∀ poll ∈ clock.polls.head?, poll.begunMs = 0) ∧
      clock.polls.IsChain (PollTimes.Precedes options.history.periodMs) := by
  intro clock
  obtain ⟨stands, spaced, first⟩ := (paced_new options).run events
  refine ⟨fun none waiting running => ?_, fun late => ?_, first, spaced⟩
  · generalize polls : clock.polls = made at stands
    cases stands with
    | unstarted phase | fetching phase | ended phase => exact nomatch waiting.symm.trans phase
    | ready _ _ due => exact beginsNow_of_due waiting running (due.trans_le (Nat.zero_le _))
    | waiting => exact absurd (polls.symm.trans none) (by simp)
  · generalize polls : clock.polls = made at stands
    cases stands with
    | unstarted _ _ start | ready _ _ _ start => exact absurd start late.ne'
    | fetching | waiting =>
        exact .inl (List.append_ne_nil_of_right_ne_nil _ (List.cons_ne_nil _ _))
    | ended _ reason => exact or_iff_not_imp_left.mpr fun none => reason (not_not.mp none)

theorem polls_paced_past_slow_fetch :
    let tick : ClockEvent := .happen (.task (.tick 0))
    let finish : ClockEvent := .happen (.task (.finishMetrics (.error .timeout) 0))
    let clock := (new .default).run
      [.happen (.task (.startMetrics 0)), tick, .elapse 12000, finish, .elapse 1, tick, .elapse 100,
        finish, .elapse 9000, tick]
    clock.polls = [⟨0, some 12000⟩, ⟨12000, some 12100⟩, ⟨17000, none⟩] ∧ 0 < clock.nowMs ∧
      (clock.polls ≠ [] ∨ clock.sampling.stopped = true) ∧
      clock.polls.IsChain (PollTimes.Precedes 5000) := by
  intro tick finish clock
  have paced := polls_paced .default
    [.happen (.task (.startMetrics 0)), tick, .elapse 12000, finish, .elapse 1, tick, .elapse 100,
      finish, .elapse 9000, tick]
  have late : 0 < clock.nowMs := by decide +kernel
  exact ⟨by decide +kernel, late, paced.2.1 late, paced.2.2.2⟩

end PollClock

end ProxyMonitor
