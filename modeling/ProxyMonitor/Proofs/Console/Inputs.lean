import ProxyMonitor.Console.Input

/-! Keys and mouse: an input touches only the table on the screen, and each kind of input only one
part of it. Under the help a key does nothing but close it, and a console that has quit stays so. -/

namespace ProxyMonitor

/-- What happens to a console: input, a reload, or something at the other end of its feed. -/
inductive ConsoleEvent where
  | key (key : Key) (nowMs : Nat)
  | mouse (event : MouseEvent) (nowMs : Nat)
  | reload
  | publishMetrics (state : MetricsState)
  | publishReports (value : Fetched (List AggregatedReport))
  | publishDocuments (value : Fetched (List Document))
  | publishInfo (value : Fetched BuildInfo)
  | takeRequest
  | closeFeed

namespace Feed

def takeRequest (feed : Feed) : Feed := { feed with requestQueued := false }

end Feed

namespace Console

def after (console : Console) : ConsoleEvent → Console
  | .key key nowMs => (console.handleKey key nowMs).1
  | .mouse event nowMs => console.handleMouse event nowMs
  | .reload => console.reload.2
  | .publishMetrics state =>
    { console with
      feed := { console.feed with metrics := console.feed.metrics.publish state } }
  | .publishReports value =>
    { console with
      feed := { console.feed with reports := console.feed.reports.publish value } }
  | .publishDocuments value =>
    { console with
      feed := { console.feed with documents := console.feed.documents.publish value } }
  | .publishInfo value =>
    { console with feed := { console.feed with info := console.feed.info.publish value } }
  | .takeRequest => { console with feed := console.feed.takeRequest }
  | .closeFeed => { console with feed := console.feed.close }

def run (console : Console) (events : List ConsoleEvent) : Console := events.foldl after console

end Console

inductive ConsoleInput where
  | key (key : Key)
  | mouse (event : MouseEvent)
  deriving DecidableEq

inductive TablePart where
  | order
  | cursor
  | selection
  deriving DecidableEq

def ConsoleInput.part? : ConsoleInput → Option TablePart
  | .key pressed => match pressed.code with
    | .enter | .char 's' => some .order
    | .left | .right | .char 'h' | .char 'l' => some .cursor
    | .up | .down | .pageUp | .pageDown | .char 'k' | .char 'j' => some .selection
    | _ => none
  | .mouse event => match event.action with
    | .scrollUp | .scrollDown => some .selection
    | .pressLeft | .other => none

def ConsoleInput.event (nowMs : Nat) : ConsoleInput → ConsoleEvent
  | .key pressed => .key pressed nowMs
  | .mouse event => .mouse event nowMs

def Command.part? : Command → Option TablePart
  | .activateSort => some .order
  | .nextColumn | .previousColumn => some .cursor
  | .selectNext _ | .selectPrevious _ => some .selection
  | _ => none

theorem Key.part_command (key : Key) :
    key.command?.bind Command.part? = (ConsoleInput.key key).part? := by
  rw [ConsoleInput.part?, Key.command?]
  split
  -- Only `c` and Tab look at the other keys that are held.
  case h_3 | h_4 => split <;> simp_all [Command.part?]
  all_goals simp_all [Command.part?]

theorem MouseEvent.part_command (event : MouseEvent) :
    event.command?.bind Command.part? = (ConsoleInput.mouse event).part? := by
  rw [ConsoleInput.part?, MouseEvent.command?]
  cases event.action with
  | pressLeft =>
      dsimp only
      split
      · cases View.tabAt? event.column <;> rfl
      · rfl
  | _ => rfl

section

variable {α : Type} [Sortable α] {table after : Table α} {part : Option TablePart}

inductive Table.Answer (table : Table α) : Option TablePart → Table α → Prop where
  | rest : Answer table none table
  | sort : Answer table (some .order) table.activateSort
  | right : Answer table (some .cursor) table.nextColumn
  | left : Answer table (some .cursor) table.previousColumn
  | down (count : Nat) : Answer table (some .selection) (table.selectNext count)
  | up (count : Nat) : Answer table (some .selection) (table.selectPrevious count)

/-- All but one part of a table is as it was. -/
structure Table.Touched (table : Table α) (part : Option TablePart) (after : Table α) : Prop where
  columns : after.columns = table.columns
  order : part ≠ some .order → after.sort = table.sort ∧ after.rows = table.rows
  cursor : part ≠ some .cursor → after.column = table.column
  selection : part ≠ some .selection → after.selected = table.selected

omit [Sortable α] in
theorem Table.Touched.refl (table : Table α) (part : Option TablePart) :
    table.Touched part table :=
  ⟨rfl, fun _ => ⟨rfl, rfl⟩, fun _ => rfl, fun _ => rfl⟩

omit [Sortable α] in
theorem Table.Touched.of_none (h : table.Touched none after) (part : Option TablePart) :
    table.Touched part after :=
  ⟨h.columns, fun _ => h.order (by decide), fun _ => h.cursor (by decide),
    fun _ => h.selection (by decide)⟩

theorem Table.touched_activateSort (table : Table α) :
    table.Touched (some .order) table.activateSort := by
  rw [activateSort]
  split
  · exact .refl table _
  · exact ⟨rfl, fun other => absurd rfl other, fun _ => rfl, fun _ => rfl⟩

theorem Table.Answer.touched (h : table.Answer part after) : table.Touched part after := by
  cases h with
  | rest => exact .refl table none
  | sort => exact table.touched_activateSort
  | right | left => exact ⟨rfl, fun _ => ⟨rfl, rfl⟩, fun other => absurd rfl other, fun _ => rfl⟩
  | down | up => exact ⟨rfl, fun _ => ⟨rfl, rfl⟩, fun _ => rfl, fun other => absurd rfl other⟩

/-- A table that is on the screen answers, any other stays. -/
def Table.AnswersIf (shown : Prop) (table : Table α) (part : Option TablePart) (after : Table α) :
    Prop :=
  (shown → table.Answer part after) ∧ (¬ shown → after = table)

theorem Table.AnswersIf.touched {shown : Prop} (h : table.AnswersIf shown part after) :
    table.Touched part after := by
  by_cases here : shown
  · exact (h.1 here).touched
  · rw [h.2 here]
    exact .refl table part

theorem Table.answersIf_rest (shown : Prop) (table : Table α) : table.AnswersIf shown none table :=
  ⟨fun _ => .rest, fun _ => rfl⟩

theorem Table.answersIf_hidden {shown : Prop} (hidden : ¬ shown) (table : Table α)
    (part : Option TablePart) : table.AnswersIf shown part table :=
  ⟨fun here => absurd here hidden, fun _ => rfl⟩

theorem Table.answersIf_shown {shown : Prop} (here : shown) (answer : table.Answer part after) :
    table.AnswersIf shown part after :=
  ⟨fun _ => answer, fun hidden => absurd here hidden⟩

end

namespace Console

variable {console after : Console} {part : Option TablePart}

def heeds (console : Console) : ConsoleInput → Bool
  | .key _ => !console.helpShown
  | .mouse _ => true

/-- A console does something for an input with the table on its screen, if it shows one. -/
structure Answers (console : Console) (part : Option TablePart) (after : Console) : Prop where
  metrics : after.metrics = console.metrics
  info : after.info = console.info
  gateway : after.gateway = console.gateway
  theme : after.theme = console.theme
  reports : console.reports.AnswersIf (console.view = .reports) part after.reports
  documents : console.documents.AnswersIf (console.view = .moderation) part after.documents
  running : console.running = false → after.running = false

theorem answers_onTable (console : Console) (act : {α : Type} → [Sortable α] → Table α → Table α)
    (answer : ∀ {α : Type} [Sortable α] (table : Table α), table.Answer part (act table)) :
    console.Answers part (console.onTable act) := by
  rw [onTable]
  cases view : console.view with
  | metrics | info =>
      exact ⟨rfl, rfl, rfl, rfl, Table.answersIf_hidden (by simp [view]) _ _,
        Table.answersIf_hidden (by simp [view]) _ _, id⟩
  | reports =>
      exact ⟨rfl, rfl, rfl, rfl, Table.answersIf_shown view (answer _),
        Table.answersIf_hidden (by simp [view]) _ _, id⟩
  | moderation =>
      exact ⟨rfl, rfl, rfl, rfl, Table.answersIf_hidden (by simp [view]) _ _,
        Table.answersIf_shown view (answer _), id⟩

theorem answers_rest (console : Console) (running : Bool) (view : View) (helpShown : Bool)
    (feed : Feed) (status : Option StatusMessage)
    (stopped : console.running = false → running = false) :
    console.Answers none { console with running, view, helpShown, feed, status } :=
  ⟨rfl, rfl, rfl, rfl, Table.answersIf_rest _ _, Table.answersIf_rest _ _, stopped⟩

theorem answers_perform (console : Console) (nowMs : Nat) (command : Command) :
    console.Answers command.part? (console.perform nowMs command).1 := by
  cases command with
  | nextColumn => exact console.answers_onTable _ fun _ => .right
  | previousColumn => exact console.answers_onTable _ fun _ => .left
  | selectNext count => exact console.answers_onTable _ fun _ => .down count
  | selectPrevious count => exact console.answers_onTable _ fun _ => .up count
  | activateSort => exact console.answers_onTable _ fun _ => .sort
  | quit => exact console.answers_rest _ _ _ _ _ fun _ => rfl
  | exportState =>
      rw [perform]
      split <;> exact console.answers_rest _ _ _ _ _ id
  | _ => exact console.answers_rest _ _ _ _ _ id

theorem answers_performAny (console : Console) (nowMs : Nat) (command : Option Command) :
    console.Answers (command.bind Command.part?) (console.performAny nowMs command).1 := by
  cases command with
  | none => exact console.answers_rest _ _ _ _ _ id
  | some command => exact console.answers_perform nowMs command

theorem answers_after (console : Console) (input : ConsoleInput) (nowMs : Nat) :
    console.Answers (if console.heeds input then input.part? else none)
      (console.after (input.event nowMs)) := by
  cases input with
  | key pressed =>
      rw [ConsoleInput.event, after, handleKey, heeds]
      cases console.helpShown with
      | true => exact console.answers_rest _ _ _ _ _ id
      | false =>
          rw [← pressed.part_command]
          exact console.answers_performAny nowMs pressed.command?
  | mouse event =>
      rw [← event.part_command]
      exact console.answers_performAny nowMs event.command?

theorem touched_after (console : Console) (input : ConsoleInput) (nowMs : Nat) :
    console.reports.Touched input.part? (console.after (input.event nowMs)).reports ∧
      console.documents.Touched input.part? (console.after (input.event nowMs)).documents := by
  have answers := console.answers_after input nowMs
  cases heeded : console.heeds input with
  | true =>
      rw [heeded, if_pos rfl] at answers
      exact ⟨answers.reports.touched, answers.documents.touched⟩
  | false =>
      rw [heeded, if_neg Bool.false_ne_true] at answers
      exact ⟨answers.reports.touched.of_none _, answers.documents.touched.of_none _⟩

theorem stopped_after (stopped : console.running = false) (event : ConsoleEvent) :
    (console.after event).running = false := by
  cases event with
  | key pressed nowMs => exact (console.answers_after (.key pressed) nowMs).running stopped
  | mouse event nowMs => exact (console.answers_after (.mouse event) nowMs).running stopped
  | _ => exact stopped

theorem stopped_run (stopped : console.running = false) (events : List ConsoleEvent) :
    (console.run events).running = false := by
  induction events generalizing console with
  | nil => exact stopped
  | cons event rest ih => exact ih (stopped_after stopped event)

/-- An input acts on the table on the screen, and only on the part of it that it is for; a key under
the help closes the help; a console that has quit never runs again. -/
theorem inputs_touch_screen_only (console : Console) :
    (∀ (input : ConsoleInput) (nowMs : Nat),
      let after := console.after (input.event nowMs)
      console.Answers (if console.heeds input then input.part? else none) after ∧
        console.reports.Touched input.part? after.reports ∧
        console.documents.Touched input.part? after.documents) ∧
      (∀ (key : Key) (nowMs : Nat), console.helpShown = true →
        console.handleKey key nowMs = ({ console with helpShown := false }, none)) ∧
      ∀ events : List ConsoleEvent, console.running = false →
        (console.run events).running = false := by
  refine ⟨fun input nowMs => ⟨?_, console.touched_after input nowMs⟩, ?_, ?_⟩
  · exact console.answers_after input nowMs
  · intro key nowMs shown
    rw [handleKey, if_pos shown]
  · exact fun events stopped => stopped_run stopped events

theorem inputs_touch_screen_only_under_help :
    let enter : Key := ⟨.enter, false, false, false⟩
    let console : Console :=
      { Console.new "proxy" "gateway/" .dark with
        view := .reports, helpShown := true, running := false }
    console.helpShown = true ∧ console.running = false ∧
      console.handleKey enter 0 = ({ console with helpShown := false }, none) ∧
      (console.run [.key enter 0, .key enter 0, .reload]).running = false := by
  intro enter console
  have confined := inputs_touch_screen_only console
  exact ⟨rfl, rfl, confined.2.1 enter 0 rfl, confined.2.2 _ rfl⟩

end Console

end ProxyMonitor
