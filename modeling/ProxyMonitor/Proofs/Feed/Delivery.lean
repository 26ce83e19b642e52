import ProxyMonitor.Proofs.Feed.Reloads
import ProxyMonitor.Proofs.PollRuns
import ProxyMonitor.Proofs.Sampling.PollTask

/-! The feed of a running sampler: each poll returns the latest state if it is a new one, so the
states come with rising numbers. -/

namespace ProxyMonitor

/-- A step of the sampling, or a poll of one of the channels of its feed. -/
inductive WatchEvent where
  | sampling (event : SamplingEvent)
  | poll (part : FeedPart)

namespace Sampling

def watch (sampling : Sampling) : WatchEvent → Sampling
  | .sampling event => sampling.after event
  | .poll part => { sampling with feed := sampling.feed.onChannel part .poll }

def statesPolled : Sampling → List WatchEvent → List MetricsState
  | _, [] => []
  | sampling, event :: rest =>
      let state? := match event with
        | .poll .metrics => sampling.feed.metrics.poll.1
        | _ => none
      state?.toList ++ (sampling.watch event).statesPolled rest

inductive MetricsMove (sampling later : Sampling) : Prop where
  | still (channel : later.feed.metrics = sampling.feed.metrics)
      (sampler : later.sampler = sampling.sampler)
  | ended (channel : later.feed.metrics = sampling.feed.metrics.close)
      (counted : sampling.sampler.state.sequence ≤ later.sampler.state.sequence)
  | told (channel : later.feed.metrics = sampling.feed.metrics.publish later.sampler.state)
      (next : later.sampler.state.sequence = sampling.sampler.state.sequence + 1)

namespace MetricsMove

variable {sampling later : Sampling}

theorem guarded {here : Prop} [Decidable here] (move : MetricsMove sampling later) :
    MetricsMove sampling (if here then later else sampling) := by
  split
  · exact move
  · exact .still rfl rfl

theorem of_same (same : later.pollTask = sampling.pollTask) : MetricsMove sampling later :=
  .still (congrArg PollTask.channel same) (congrArg PollTask.sampler same)

end MetricsMove

theorem metricsMove_finish (sampling : Sampling) (result : Except FetchError String) (nowMs : Nat) :
    MetricsMove sampling (sampling.finishMetrics result nowMs) := by
  have next : (sampling.sampler.apply result nowMs).state.sequence =
      sampling.sampler.state.sequence + 1 := by
    rw [Sampler.apply_state sampling.sampler ⟨result, nowMs⟩, MetricsState.advance_sequence]
  rw [finishMetrics]
  split
  · exact .ended rfl (Nat.le_refl _)
  · dsimp only
    split
    · exact .ended rfl (next ▸ Nat.le_succ _)
    · exact .told rfl next

theorem metricsMove_step (sampling : Sampling) (step : TaskStep) :
    MetricsMove sampling (sampling.step step) := by
  cases step with
  | startMetrics nowMs => exact .guarded (.still rfl rfl)
  | tick nowMs =>
      refine .guarded ?_
      rw [tick]
      split
      · exact .ended rfl (Nat.le_refl _)
      · split <;> exact .still rfl rfl
  | finishMetrics result nowMs => exact .guarded (sampling.metricsMove_finish result nowMs)
  | _ => exact .of_same (sampling.pollTask_step_of_other rfl)

theorem metricsMove_after (sampling : Sampling) (event : SamplingEvent) :
    MetricsMove sampling (sampling.after event) := by
  cases event with
  | task step => exact sampling.metricsMove_step step
  | requestReports =>
      have kept : sampling.feed.requestReports.2.metrics = sampling.feed.metrics :=
        sampling.feed.channel_requestReports .metrics
      rw [after]
      split
      · exact .still rfl rfl
      · exact .still kept rfl
  | stop => exact .still rfl rfl
  | dropFeed => exact .still rfl rfl

/-- The sequence has reached `last`, and a state that waits in the channel lies beyond it. -/
structure Numbered (sampling : Sampling) (last : Nat) : Prop where
  reached : last ≤ sampling.sampler.state.sequence
  waiting : sampling.feed.metrics.hasNew = true →
    last < sampling.feed.metrics.value.sequence ∧
      sampling.feed.metrics.value.sequence ≤ sampling.sampler.state.sequence

variable {sampling later : Sampling} {last : Nat}

theorem Numbered.move (h : Numbered sampling last) (move : MetricsMove sampling later) :
    Numbered later last := by
  obtain ⟨reached, waiting⟩ := h
  cases move with
  | still channel sampler => exact ⟨sampler ▸ reached, by rwa [channel, sampler]⟩
  | ended channel counted =>
      refine ⟨Nat.le_trans reached counted, fun new => ?_⟩
      rw [channel] at new ⊢
      exact (waiting new).imp_right (Nat.le_trans · counted)
  | told channel next =>
      refine ⟨next ▸ Nat.le_succ_of_le reached, fun _ => ?_⟩
      rw [channel]
      exact ⟨next ▸ Nat.lt_succ_of_le reached, Nat.le_refl _⟩

theorem Numbered.poll (h : Numbered sampling last) :
    (∀ state ∈ sampling.feed.metrics.poll.1, last < state.sequence) ∧
      Numbered (sampling.watch (.poll .metrics))
        (sampling.feed.metrics.poll.1.elim last MetricsState.sequence) := by
  have read : (sampling.watch (.poll .metrics)).feed.metrics.hasNew = false := by
    change (sampling.feed.metrics.markSeen).hasNew = false
    simp [Channel.hasNew, Channel.markSeen]
  rw [Channel.poll]
  cases new : sampling.feed.metrics.hasNew with
  | false => exact ⟨by simp, h.reached, by simp [read]⟩
  | true =>
      obtain ⟨beyond, within⟩ := h.waiting new
      exact ⟨by simpa using beyond, within, by simp [read]⟩

theorem numbered_new (options : SamplingOptions) : Numbered (new options) 0 where
  reached := Nat.zero_le _
  waiting new := absurd new Bool.false_ne_true

theorem Numbered.statesPolled (h : Numbered sampling last) (events : List WatchEvent) :
    (∀ state ∈ sampling.statesPolled events, last < state.sequence) ∧
      (sampling.statesPolled events).Pairwise (·.sequence < ·.sequence) := by
  induction events generalizing sampling last with
  | nil => exact ⟨by simp [Sampling.statesPolled], .nil⟩
  | cons event rest ih =>
      cases event with
      | sampling event => exact ih (h.move (sampling.metricsMove_after event))
      | poll part =>
          cases part with
          | metrics =>
              obtain ⟨beyond, numbered⟩ := h.poll
              obtain ⟨later, rising⟩ := ih numbered
              rw [Sampling.statesPolled]
              cases returned : sampling.feed.metrics.poll.1 with
              | none =>
                  rw [returned] at later
                  exact ⟨later, rising⟩
              | some state =>
                  rw [returned] at later
                  have next := beyond state returned
                  refine ⟨List.forall_mem_cons.mpr ⟨next, fun other among => ?_⟩,
                    List.pairwise_cons.mpr ⟨later, rising⟩⟩
                  exact Nat.lt_trans next (later other among)
          | _ => exact ih ⟨h.reached, h.waiting⟩

end Sampling

/-- Each poll of a feed returns the latest value if it is new; a reload takes what its polls return
and tells whether there was anything; the states of a sampler come with rising numbers. -/
theorem feed_delivers_latest_once :
    (∀ (part : FeedPart) (past : List FeedEvent), part.Delivers past) ∧
      (∀ console : Console, console.reload = console.reloadAmid [] [] []) ∧
      (∀ (console : Console) (past second third fourth : List FeedEvent),
        console.Reloaded past second third fourth
          ({ console with feed := Feed.new.hearAll past }.reloadAmid second third fourth)) ∧
      ∀ (options : SamplingOptions) (events : List WatchEvent),
        ((Sampling.new options).statesPolled events).Pairwise (·.sequence < ·.sequence) :=
  ⟨FeedPart.delivers, fun console => console.reloadAmid_nil.symm, Console.reloaded_amid,
    fun options events => ((Sampling.numbered_new options).statesPolled events).2⟩

theorem feed_delivers_one_shot :
    let past : List FeedEvent :=
      [.on .info .poll, .on .info (.publish (.failed "down")), .on .reports .poll, .on .info .close]
    FeedEvent.ownOf .info past =
        [.poll] ++ .publish (.failed "down") :: List.replicate 1 .close ∧
      (Feed.new.hearAll past).info.poll.1 = some (.failed "down") := by
  intro past
  have happened : FeedEvent.ownOf .info past =
      [.poll] ++ .publish (.failed "down") :: List.replicate 1 .close := rfl
  exact ⟨happened, (feed_delivers_latest_once.1 .info past).kept _ _ _ happened⟩

end ProxyMonitor
