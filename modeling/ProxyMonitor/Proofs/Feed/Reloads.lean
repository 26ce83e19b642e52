import ProxyMonitor.Console
import ProxyMonitor.Proofs.Feed.Channels

/-! The four channels of a feed under any interleaving of their ends, and reloads of a console
while the publishers go on. -/

namespace ProxyMonitor

inductive FeedEvent where
  | on (part : FeedPart) (event : ChannelEvent part.Value)
  | request
  | takeRequest
  | close

namespace FeedEvent

def own? (part : FeedPart) : FeedEvent → Option (ChannelEvent part.Value)
  | on other event => if same : other = part then some (same ▸ event) else none
  | close => some .close
  | request | takeRequest => none

def ownOf (part : FeedPart) (events : List FeedEvent) : List (ChannelEvent part.Value) :=
  events.filterMap (own? part)

theorem ownOf_append (part : FeedPart) (earlier later : List FeedEvent) :
    ownOf part (earlier ++ later) = ownOf part earlier ++ ownOf part later :=
  List.filterMap_append

end FeedEvent

namespace Feed

def onChannel (feed : Feed) : (part : FeedPart) → ChannelEvent part.Value → Feed
  | .metrics, event => { feed with metrics := feed.metrics.after event }
  | .reports, event => { feed with reports := feed.reports.after event }
  | .documents, event => { feed with documents := feed.documents.after event }
  | .info, event => { feed with info := feed.info.after event }

def hear (feed : Feed) : FeedEvent → Feed
  | .on part event => feed.onChannel part event
  | .request => feed.requestReports.2
  | .takeRequest => { feed with requestQueued := false }
  | .close => feed.close

def hearAll (feed : Feed) (events : List FeedEvent) : Feed := events.foldl hear feed

theorem hearAll_append (feed : Feed) (earlier later : List FeedEvent) :
    feed.hearAll (earlier ++ later) = (feed.hearAll earlier).hearAll later := List.foldl_append

theorem hearAll_hear (feed : Feed) (past later : List FeedEvent) (event : FeedEvent) :
    ((feed.hearAll past).hear event).hearAll later = feed.hearAll (past ++ event :: later) :=
  (feed.hearAll_append past (event :: later)).symm

theorem hear_hearAll (feed : Feed) (past : List FeedEvent) (event : FeedEvent) :
    (feed.hearAll past).hear event = feed.hearAll (past ++ [event]) :=
  feed.hearAll_hear past [] event

theorem channel_requestReports (feed : Feed) (part : FeedPart) :
    feed.requestReports.2.channel part = feed.channel part := by
  rw [requestReports]
  split <;> rfl

theorem channel_hear (feed : Feed) (part : FeedPart) (event : FeedEvent) :
    (feed.hear event).channel part =
      ((event.own? part).map (feed.channel part).after).getD (feed.channel part) := by
  cases event with
  | on other event => cases other <;> cases part <;> rfl
  | request => exact feed.channel_requestReports part
  | takeRequest => cases part <;> rfl
  | close => cases part <;> rfl

theorem channel_hearAll (feed : Feed) (part : FeedPart) (events : List FeedEvent) :
    (feed.hearAll events).channel part = (feed.channel part).run (FeedEvent.ownOf part events) := by
  induction events generalizing feed with
  | nil => rfl
  | cons event rest ih =>
      rw [hearAll, List.foldl_cons, ← hearAll, ih, channel_hear, FeedEvent.ownOf, FeedEvent.ownOf,
        List.filterMap_cons]
      cases event.own? part <;> rfl

theorem exists_channel_new (part : FeedPart) : ∃ initial, new.channel part = .new initial := by
  cases part <;> exact ⟨_, rfl⟩

end Feed

namespace FeedPart

variable (part : FeedPart) (past : List FeedEvent)

def next? : Option part.Value := (Channel.unread (FeedEvent.ownOf part past)).getLast?

theorem poll : ((Feed.new.hearAll past).channel part).poll.1 = part.next? past := by
  obtain ⟨initial, fresh⟩ := Feed.exists_channel_new part
  rw [Feed.channel_hearAll, fresh]
  exact ((Channel.holds_new initial).run _).poll

structure Delivers : Prop where
  /-- The next poll returns the latest of what was published since the last one, if anything. -/
  latest : ((Feed.new.hearAll past).channel part).poll.1 =
    (Channel.unread (FeedEvent.ownOf part past)).getLast?
  once : ((Feed.new.channel part).deliveries (FeedEvent.ownOf part past)).Sublist
    (Channel.publications (FeedEvent.ownOf part past))
  kept : ∀ earlier value drops,
    FeedEvent.ownOf part past = earlier ++ .publish value :: List.replicate drops .close →
      ((Feed.new.hearAll past).channel part).poll.1 = some value

theorem delivers : part.Delivers past := by
  refine ⟨part.poll past, ?once, ?kept⟩
  case once =>
    obtain ⟨initial, fresh⟩ := Feed.exists_channel_new part
    rw [fresh]
    exact (Channel.holds_new initial).deliveries_sublist _
  case kept =>
    intro earlier value drops happened
    rw [part.poll, next?, happened, Channel.unread_closed, List.getLast?_concat]

end FeedPart

namespace Console

def reloadAmid (console : Console) (second third fourth : List FeedEvent) : Bool × Console :=
  let metrics := console.feed.metrics.poll.1
  let feed := (console.feed.hear (.on .metrics .poll)).hearAll second
  let reports := feed.reports.poll.1
  let feed := (feed.hear (.on .reports .poll)).hearAll third
  let documents := feed.documents.poll.1
  let feed := (feed.hear (.on .documents .poll)).hearAll fourth
  let info := feed.info.poll.1
  (metrics.isSome || reports.isSome || documents.isSome || info.isSome,
    { console with
      feed := feed.hear (.on .info .poll)
      metrics := metrics.getD console.metrics
      reports := (reports.map console.reports.replace).getD console.reports
      documents := (documents.map console.documents.replace).getD console.documents
      info := info.getD console.info })

theorem reloadAmid_nil (console : Console) : console.reloadAmid [] [] [] = console.reload := rfl

/-- A reload amid the events of a feed with a past: it tells whether any poll returned a value,
and takes what they returned in place of what the console showed. -/
structure Reloaded (console : Console) (past second third fourth : List FeedEvent)
    (outcome : Bool × Console) : Prop where
  changed : outcome.1 = true ↔
    (FeedPart.metrics.next? past).isSome ∨ (FeedPart.reports.next? (past ++ second)).isSome ∨
      (FeedPart.documents.next? (past ++ second ++ third)).isSome ∨
      (FeedPart.info.next? (past ++ second ++ third ++ fourth)).isSome
  shown : outcome.2 = { console with
    feed := outcome.2.feed
    metrics := (FeedPart.metrics.next? past).getD console.metrics
    reports := ((FeedPart.reports.next? (past ++ second)).map console.reports.replace).getD
      console.reports
    documents := ((FeedPart.documents.next? (past ++ second ++ third)).map
      console.documents.replace).getD console.documents
    info := (FeedPart.info.next? (past ++ second ++ third ++ fourth)).getD console.info }
  feed : outcome.2.feed = Feed.new.hearAll (past ++ .on .metrics .poll :: second ++
    .on .reports .poll :: third ++ .on .documents .poll :: fourth ++ [.on .info .poll])

theorem reloaded_amid (console : Console) (past second third fourth : List FeedEvent) :
    Reloaded console past second third fourth
      ({ console with feed := Feed.new.hearAll past }.reloadAmid second third fourth) := by
  have metrics : (Feed.new.hearAll past).metrics.poll.1 = FeedPart.metrics.next? past :=
    FeedPart.metrics.poll past
  -- The polls of other channels are no events of a channel.
  have reports : (Feed.new.hearAll (past ++ .on .metrics .poll :: second)).reports.poll.1 =
      FeedPart.reports.next? (past ++ second) := by
    refine (FeedPart.reports.poll _).trans ?_
    simp only [FeedPart.next?, FeedEvent.ownOf_append]
    rfl
  have documents : (Feed.new.hearAll (past ++ .on .metrics .poll :: second ++
        .on .reports .poll :: third)).documents.poll.1 =
      FeedPart.documents.next? (past ++ second ++ third) := by
    refine (FeedPart.documents.poll _).trans ?_
    simp only [FeedPart.next?, FeedEvent.ownOf_append]
    rfl
  have info : (Feed.new.hearAll (past ++ .on .metrics .poll :: second ++
        .on .reports .poll :: third ++ .on .documents .poll :: fourth)).info.poll.1 =
      FeedPart.info.next? (past ++ second ++ third ++ fourth) := by
    refine (FeedPart.info.poll _).trans ?_
    simp only [FeedPart.next?, FeedEvent.ownOf_append]
    rfl
  simp only [reloadAmid, Feed.hearAll_hear, metrics, reports, documents, info]
  constructor
  case changed => simp only [Bool.or_eq_true, or_assoc]
  case shown => rfl
  case feed => simp only [Feed.hear_hearAll]

end Console

end ProxyMonitor
