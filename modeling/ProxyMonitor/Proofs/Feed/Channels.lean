import ProxyMonitor.Feed

/-! What the polls of a channel return: the latest of the values that no poll has passed. -/

namespace ProxyMonitor

inductive ChannelEvent (α : Type) where
  | publish (value : α)
  | poll
  | close

namespace ChannelEvent

variable {α : Type}

def published? : ChannelEvent α → Option α
  | publish value => some value
  | poll | close => none

def leave (unread : List α) : ChannelEvent α → List α
  | publish value => unread ++ [value]
  | poll => []
  | close => unread

end ChannelEvent

namespace Channel

variable {α : Type}

def publications (events : List (ChannelEvent α)) : List α :=
  events.filterMap ChannelEvent.published?

/-- The values that are published after the last poll. -/
def unread (events : List (ChannelEvent α)) : List α := events.foldl ChannelEvent.leave []

def after (channel : Channel α) : ChannelEvent α → Channel α
  | .publish value => channel.publish value
  | .poll => channel.poll.2
  | .close => channel.close

def run (channel : Channel α) (events : List (ChannelEvent α)) : Channel α :=
  events.foldl after channel

def delivered? (channel : Channel α) : ChannelEvent α → Option α
  | .poll => channel.poll.1
  | .publish _ | .close => none

def deliveries (channel : Channel α) : List (ChannelEvent α) → List α
  | [] => []
  | event :: rest => (channel.delivered? event).toList ++ (channel.after event).deliveries rest

/-- The channel counts what is unread, and holds the last of it. -/
structure Holds (channel : Channel α) (unread : List α) : Prop where
  count : channel.published = channel.seen + unread.length
  latest : ∀ value ∈ unread.getLast?, value = channel.value

theorem holds_new (initial : α) : (new initial).Holds [] where
  count := rfl
  latest := by simp

namespace Holds

variable {channel : Channel α} {unread : List α}

theorem hasNew_iff (h : channel.Holds unread) : channel.hasNew = true ↔ unread ≠ [] := by
  rw [hasNew, bne_iff_ne, h.count, ne_eq, Nat.left_eq_add, List.length_eq_zero_iff]

theorem poll (h : channel.Holds unread) : channel.poll.1 = unread.getLast? := by
  rw [Channel.poll]
  cases last : unread.getLast? with
  | none =>
      have read : unread = [] := List.getLast?_eq_none_iff.mp last
      rw [if_neg (fun new => h.hasNew_iff.mp new read)]
  | some value =>
      have left : unread ≠ [] := by
        rintro rfl
        cases last
      rw [if_pos (h.hasNew_iff.mpr left), h.latest value last]

theorem after (h : channel.Holds unread) (event : ChannelEvent α) :
    (channel.after event).Holds (event.leave unread) := by
  cases event with
  | publish value =>
      constructor
      · change channel.published + 1 = _
        rw [h.count, ChannelEvent.leave, List.length_append, List.length_singleton]
        exact Nat.add_assoc _ _ _
      · rw [ChannelEvent.leave, List.getLast?_concat]
        rintro last ⟨⟩
        rfl
  | poll => exact ⟨rfl, by simp [ChannelEvent.leave]⟩
  | close => exact ⟨h.count, h.latest⟩

theorem run (h : channel.Holds unread) (events : List (ChannelEvent α)) :
    (channel.run events).Holds (events.foldl ChannelEvent.leave unread) := by
  induction events generalizing channel unread with
  | nil => exact h
  | cons event rest ih => exact ih (h.after event)

theorem deliveries_sublist (h : channel.Holds unread) (events : List (ChannelEvent α)) :
    (channel.deliveries events).Sublist (unread ++ publications events) := by
  induction events generalizing channel unread with
  | nil => exact List.nil_sublist _
  | cons event rest ih =>
      have later := ih (h.after event)
      cases event with
      | publish value =>
          simpa [deliveries, delivered?, publications, ChannelEvent.published?,
            ChannelEvent.leave] using later
      | poll =>
          have returned : (channel.poll.1.toList).Sublist unread := by
            rw [h.poll]
            cases last : unread.getLast? with
            | none => exact List.nil_sublist _
            | some value =>
                exact List.singleton_sublist.mpr (List.mem_of_getLast? last)
          exact returned.append later
      | close => exact later

end Holds

theorem unread_append (earlier later : List (ChannelEvent α)) :
    unread (earlier ++ later) = later.foldl ChannelEvent.leave (unread earlier) :=
  List.foldl_append

theorem unread_closed (earlier : List (ChannelEvent α)) (value : α) (drops : Nat) :
    unread (earlier ++ .publish value :: List.replicate drops .close) =
      unread earlier ++ [value] := by
  rw [unread_append, List.foldl_cons]
  induction drops with
  | zero => rfl
  | succ drops ih => rwa [List.replicate_succ, List.foldl_cons]

end Channel

end ProxyMonitor
