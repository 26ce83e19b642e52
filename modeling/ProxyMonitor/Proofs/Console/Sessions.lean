import ProxyMonitor.Proofs.Console.Inputs
import ProxyMonitor.Proofs.Console.Tables

/-! Sessions: whatever a user does and the feed brings, both tables show the rows that were last
taken from the feed, in the order of their active column. -/

namespace ProxyMonitor

namespace Console

/-- What the reloads of a session take from one of the channels, in order. -/
def taken {α : Type} (channel : Feed → Channel α) : Console → List ConsoleEvent → List α
  | _, [] => []
  | console, event :: rest =>
    let value? := match event with
      | .reload => (channel console.feed).poll.1
      | _ => none
    value?.toList ++ taken channel (console.after event) rest

end Console

/-- A table of the console: where it is shown, and where its rows come from. -/
structure TablePlace (α : Type) where
  view : View
  columns : List TableColumn
  table : Console → Table α
  channel : Feed → Channel (Fetched (List α))

namespace TablePlace

variable {α : Type}

def reports : TablePlace AggregatedReport :=
  ⟨.reports, reportColumns, Console.reports, Feed.reports⟩

def documents : TablePlace Document :=
  ⟨.moderation, documentColumns, Console.documents, Feed.documents⟩

/-- A key to sort with, pressed while the table is on the screen and nothing over it. -/
def sorts (place : TablePlace α) (console : Console) : ConsoleEvent → Bool
  | .key pressed _ =>
    console.view == place.view && !console.helpShown &&
      (pressed.code == .enter || pressed.code == .char 's')
  | _ => false

/-- The field that an event chooses: that of the column under the cursor. -/
def choice? (place : TablePlace α) (console : Console) (event : ConsoleEvent) : Option String :=
  if place.sorts console event then
    place.columns[(place.table console).column]?.map TableColumn.field
  else none

def choices (place : TablePlace α) : Console → List ConsoleEvent → List String
  | _, [] => []
  | console, event :: rest =>
    (place.choice? console event).toList ++ place.choices (console.after event) rest

end TablePlace

section

variable {α : Type} [Sortable α] {columns : List TableColumn} {given : Fetched (List α)}
  {table after : Table α} {part : Option TablePart} {shown : Prop}

theorem Table.Kept.answer (h : table.Kept columns given) (answer : table.Answer part after) :
    after.Kept columns given := by
  cases answer with
  | rest => exact h
  | sort => exact h.activateSort
  | right => exact h.nextColumn
  | left => exact h.previousColumn
  | down count => exact h.selectNext count
  | up count => exact h.selectPrevious count

theorem Table.Kept.answersIf (h : table.Kept columns given)
    (answers : table.AnswersIf shown part after) : after.Kept columns given := by
  by_cases here : shown
  · exact h.answer (answers.1 here)
  · exact answers.2 here ▸ h

theorem Table.AnswersIf.sort [Decidable shown] (answers : table.AnswersIf shown part after) :
    after.sort =
      if shown ∧ part = some .order then table.activateSort.sort else table.sort := by
  by_cases sorting : shown ∧ part = some .order
  · obtain ⟨here, rfl⟩ := sorting
    rw [if_pos ⟨here, rfl⟩]
    cases answers.1 here with
    | sort => rfl
  · rw [if_neg sorting]
    by_cases here : shown
    · exact ((answers.1 here).touched.order fun order => sorting ⟨here, order⟩).1
    · rw [answers.2 here]

end

namespace Console

structure TablesKept (reports : Fetched (List AggregatedReport))
    (documents : Fetched (List Document)) (console : Console) : Prop where
  reports : console.reports.Kept reportColumns reports
  documents : console.documents.Kept documentColumns documents

section

variable {reports : Fetched (List AggregatedReport)} {documents : Fetched (List Document)}
  {console : Console}

theorem tablesKept_new (source gateway : String) (theme : Theme) (feed : Feed) :
    TablesKept .pending .pending { Console.new source gateway theme with feed } where
  reports := .new (by decide)
  documents := .new (by decide)

theorem TablesKept.input (h : TablesKept reports documents console) (input : ConsoleInput)
    (nowMs : Nat) : TablesKept reports documents (console.after (input.event nowMs)) := by
  have answers := console.answers_after input nowMs
  exact ⟨h.reports.answersIf answers.reports, h.documents.answersIf answers.documents⟩

theorem TablesKept.reload (h : TablesKept reports documents console) :
    TablesKept (console.feed.reports.poll.1.getD reports)
      (console.feed.documents.poll.1.getD documents) console.reload.2 := by
  constructor
  · change ((console.feed.reports.poll.1.map console.reports.replace).getD console.reports).Kept _ _
    cases console.feed.reports.poll.1 with
    | none => exact h.reports
    | some rows => exact h.reports.replace rows
  · change ((console.feed.documents.poll.1.map console.documents.replace).getD
      console.documents).Kept _ _
    cases console.feed.documents.poll.1 with
    | none => exact h.documents
    | some rows => exact h.documents.replace rows

end

theorem getLast?_append_getD {α : Type} (first : Option α) (later : List α) (default : α) :
    (first.toList ++ later).getLast?.getD default = later.getLast?.getD (first.getD default) := by
  rw [List.getLast?_append]
  cases later.getLast? <;> cases first <;> rfl

theorem foldl_toList {α β : Type} (step : β → α → β) (start : β) (given : Option α) :
    given.toList.foldl step start = given.elim start (step start) := by
  cases given <;> rfl

theorem TablesKept.run {reports : Fetched (List AggregatedReport)}
    {documents : Fetched (List Document)} {console : Console}
    (h : TablesKept reports documents console) (events : List ConsoleEvent) :
    TablesKept ((console.taken Feed.reports events).getLast?.getD reports)
      ((console.taken Feed.documents events).getLast?.getD documents) (console.run events) := by
  -- What was given last is carried along: each reload takes the place of what came before.
  induction events generalizing console reports documents with
  | nil => exact h
  | cons event rest ih =>
      simp only [taken, getLast?_append_getD]
      cases event with
      | reload => exact ih h.reload
      | key pressed nowMs => exact ih (h.input (.key pressed) nowMs)
      | mouse event nowMs => exact ih (h.input (.mouse event) nowMs)
      | _ => exact ih ⟨h.reports, h.documents⟩

end Console

theorem TablePlace.sorts_iff {α : Type} (place : TablePlace α) (console : Console)
    (input : ConsoleInput) (nowMs : Nat) :
    place.sorts console (input.event nowMs) = true ↔ console.view = place.view ∧
      (if console.heeds input then input.part? else none) = some .order := by
  cases input with
  | key pressed =>
      have sorting : (ConsoleInput.key pressed).part? = some .order ↔
          pressed.code = .enter ∨ pressed.code = .char 's' := by
        rw [ConsoleInput.part?]
        split <;> simp_all
      simp only [ConsoleInput.event, sorts, Console.heeds]
      by_cases shown : console.helpShown = true <;> simp [shown, sorting]
  | mouse event =>
      simp only [ConsoleInput.event, sorts, ConsoleInput.part?]
      cases event.action <;> simp

namespace Console

theorem sort_reload (console : Console) :
    console.reload.2.reports.sort = console.reports.sort ∧
      console.reload.2.documents.sort = console.documents.sort := by
  constructor
  · change ((console.feed.reports.poll.1.map console.reports.replace).getD console.reports).sort = _
    cases console.feed.reports.poll.1 <;> rfl
  · change ((console.feed.documents.poll.1.map console.documents.replace).getD
      console.documents).sort = _
    cases console.feed.documents.poll.1 <;> rfl

theorem sort_after (console : Console) (event : ConsoleEvent) :
    (console.after event).reports.sort =
        (if TablePlace.reports.sorts console event then console.reports.activateSort.sort
          else console.reports.sort) ∧
      (console.after event).documents.sort =
        (if TablePlace.documents.sorts console event then console.documents.activateSort.sort
          else console.documents.sort) := by
  have inputs : ∀ (input : ConsoleInput) (nowMs : Nat),
      (console.after (input.event nowMs)).reports.sort =
          (if TablePlace.reports.sorts console (input.event nowMs) then
            console.reports.activateSort.sort else console.reports.sort) ∧
        (console.after (input.event nowMs)).documents.sort =
          (if TablePlace.documents.sorts console (input.event nowMs) then
            console.documents.activateSort.sort else console.documents.sort) := by
    intro input nowMs
    have answers := console.answers_after input nowMs
    simp only [TablePlace.sorts_iff]
    exact ⟨answers.reports.sort, answers.documents.sort⟩
  cases event with
  | key pressed nowMs => exact inputs (.key pressed) nowMs
  | mouse event nowMs => exact inputs (.mouse event) nowMs
  | reload => exact console.sort_reload
  | _ => exact ⟨rfl, rfl⟩

variable {reports : Fetched (List AggregatedReport)} {documents : Fetched (List Document)}
  {console : Console}

theorem TablesKept.sort_next (h : TablesKept reports documents console) (event : ConsoleEvent) :
    (console.after event).reports.sort = (TablePlace.reports.choice? console event).elim
        console.reports.sort console.reports.sort.pick ∧
      (console.after event).documents.sort = (TablePlace.documents.choice? console event).elim
        console.documents.sort console.documents.sort.pick := by
  have answers := console.sort_after event
  rw [h.reports.sort_activateSort, h.documents.sort_activateSort] at answers
  rw [answers.1, answers.2, TablePlace.choice?, TablePlace.choice?]
  constructor <;> split <;> rfl

theorem TablesKept.sort_run (h : TablesKept reports documents console)
    (events : List ConsoleEvent) :
    (console.run events).reports.sort =
        (TablePlace.reports.choices console events).foldl SortState.pick console.reports.sort ∧
      (console.run events).documents.sort =
        (TablePlace.documents.choices console events).foldl SortState.pick
          console.documents.sort := by
  induction events generalizing console reports documents with
  | nil => exact ⟨rfl, rfl⟩
  | cons event rest ih =>
      have next := h.sort_next event
      rw [TablePlace.choices, TablePlace.choices, List.foldl_append, List.foldl_append,
        foldl_toList, foldl_toList, ← next.1, ← next.2]
      exact ih (h.run [event])

end Console

/-- What holds of a table after a session: it is kept, with the rows last taken from its channel,
and its sort state is what the choices made of it, whether or not there were rows. -/
structure TablePlace.InSession {α : Type} [Sortable α] (place : TablePlace α) (start : Console)
    (events : List ConsoleEvent) : Prop where
  kept : (place.table (start.run events)).Kept place.columns
    ((start.taken place.channel events).getLast?.getD .pending)
  chosen : (place.table (start.run events)).sort =
    (place.choices start events).foldl SortState.pick ⟨"index", .ascending, true⟩
  next : ∀ event, (place.table ((start.run events).after event)).sort =
    (place.choice? (start.run events) event).elim (place.table (start.run events)).sort
      (place.table (start.run events)).sort.pick

/-- After every session, both tables have their cursor and their selection inside, sort by the
column that was chosen last, and show what was last taken from the feed in that order. -/
theorem Console.session_tables_kept (source gateway : String) (theme : Theme) (feed : Feed)
    (events : List ConsoleEvent) :
    let start : Console := { Console.new source gateway theme with feed }
    TablePlace.reports.InSession start events ∧ TablePlace.documents.InSession start events := by
  intro start
  have begun := tablesKept_new source gateway theme feed
  have kept := begun.run events
  have sorts := begun.sort_run events
  exact ⟨⟨kept.reports, sorts.1, fun event => (kept.sort_next event).1⟩,
    ⟨kept.documents, sorts.2, fun event => (kept.sort_next event).2⟩⟩

end ProxyMonitor
