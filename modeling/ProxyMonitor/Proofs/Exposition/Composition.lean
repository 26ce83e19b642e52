import ProxyMonitor.Proofs.Exposition.Hearing

/-! Two texts in one: if the second has nothing to do with the families of the first, each is read
as it would be by itself. -/

namespace ProxyMonitor.Exposition

def mentioned? (line : List Char) : Option String :=
  ((comment? line).map Statement.family).or ((sampleLine? line).map SampleLine.name)

/-- No line has one of these names, or one of them with the suffix of a group's line. -/
def Unrelated (names : List String) (lines : List (List Char)) : Prop :=
  ∀ line ∈ lines, ∀ mentioned ∈ mentioned? line, ∀ name ∈ names, ∀ suffix ∈ lineSuffixes,
    mentioned ≠ name ++ suffix

instance (names : List String) (lines : List (List Char)) : Decidable (Unrelated names lines) :=
  inferInstanceAs (Decidable (∀ line ∈ lines, ∀ mentioned ∈ mentioned? line, _))

def Problem.after (before : Nat) (problem : Problem) : Problem :=
  { problem with line := before + problem.line }

theorem revise_append_of_fresh {name : String} {front : List Sketch}
    (fresh : name ∉ front.map Sketch.name) (change : Change) (sketches : List Sketch) :
    revise name change (front ++ sketches) = front ++ revise name change sketches := by
  induction front with
  | nil => rfl
  | cons sketch rest ih =>
      rw [List.map_cons, List.mem_cons, not_or] at fresh
      rw [List.cons_append, revise_cons, if_neg (Ne.symm fresh.1), ih fresh.2, List.cons_append]

namespace Builder

theorem groupTarget_congr {b other : Builder} {line : SampleLine}
    (same : ∀ suffix ∈ lineSuffixes, ∀ base, line.name = base ++ suffix →
      other.kindOf base = b.kindOf base) : other.groupTarget line = b.groupTarget line := by
  have summary : other.kind? line.name = some .summary ↔ b.kind? line.name = some .summary := by
    rw [kind_eq_some_iff (by decide), kind_eq_some_iff (by decide),
      same "" (by decide) line.name String.append_empty.symm]
  rw [groupTarget, groupTarget, bucketBase_eq, bucketBase_eq, totalTarget_eq, totalTarget_eq,
    SampleLine.bucketed_congr same, SampleLine.total_congr same, if_congr summary rfl rfl]

/-- One builder has come to some sketches, the other to the same behind those in front. -/
def Behind (front : List Sketch) (b other : Builder) : Prop :=
  ∃ sketches, b.Shows sketches ∧ other.Shows (front ++ sketches)

inductive Alike (front : List Sketch) : Except Cause Builder → Except Cause Builder → Prop where
  | taken {b other : Builder} (behind : b.Behind front other) : Alike front (.ok b) (.ok other)
  | refused (cause : Cause) : Alike front (.error cause) (.error cause)

namespace Behind

variable {front : List Sketch} {b other : Builder}

theorem kindOf (h : b.Behind front other) {name : String} (fresh : name ∉ front.map Sketch.name) :
    other.kindOf name = b.kindOf name := by
  obtain ⟨sketches, shows, others⟩ := h
  have absent : name ∉ (front.map Sketch.heading).map Prod.fst := by
    rw [List.map_map]
    exact fresh
  rw [others.kindOf, shows.kindOf, List.map_append, kindIn_append_of_fresh absent]

theorem change (h : b.Behind front other) {name : String} (fresh : name ∉ front.map Sketch.name)
    (change : Change) : (b.change name change).Behind front (other.change name change) := by
  obtain ⟨sketches, shows, others⟩ := h
  exact ⟨_, shows.change name change, revise_append_of_fresh fresh change sketches ▸
    others.change name change⟩

theorem finish (h : b.Behind front other) : other.finish = front.map Sketch.finish ++ b.finish := by
  obtain ⟨sketches, shows, others⟩ := h
  rw [others.finish, shows.finish, List.map_append]

theorem sample (h : b.Behind front other) {line : SampleLine}
    (fresh : ∀ suffix ∈ lineSuffixes, ∀ base, line.name = base ++ suffix →
      base ∉ front.map Sketch.name) : Alike front (b.sample line) (other.sample line) := by
  have target : other.groupTarget line = b.groupTarget line :=
    groupTarget_congr fun suffix listed base name => h.kindOf (fresh suffix listed base name)
  rw [Builder.sample, Builder.sample, target]
  cases found : b.groupTarget line with
  | error cause => exact .refused cause
  | ok target =>
      cases target with
      | none =>
          exact .taken (h.change (fresh "" (by decide) line.name String.append_empty.symm)
            (.single ⟨line.labels, .single line.value⟩))
      | some target =>
          obtain ⟨name, -⟩ := SampleLine.part_of_target (groupTarget_eq_ok_iff.mp found)
          obtain ⟨suffix, listed, spelled⟩ := exists_suffix target.part target.family
          exact .taken (h.change (fresh suffix listed target.family (name.trans spelled))
            (.record (unmarked line.labels) target.part line.value))

theorem readLine (h : b.Behind front other) {line : List Char}
    (unrelated : Unrelated (front.map Sketch.name) [line]) :
    Alike front (readLine b line) (readLine other line) := by
  have fresh : ∀ mentioned ∈ mentioned? line, ∀ suffix ∈ lineSuffixes, ∀ base,
      mentioned = base ++ suffix → base ∉ front.map Sketch.name :=
    fun mentioned told suffix listed base spelled among =>
      unrelated line List.mem_cons_self mentioned told base among suffix listed spelled
  rw [Exposition.readLine, Exposition.readLine]
  split
  next => exact .taken h
  next text hash =>
    rw [Builder.comment_eq, Builder.comment_eq]
    have told : comment? line = remark? text := by simp only [comment?, hash]
    cases remark : remark? text with
    | none => exact .taken h
    | some statement =>
        refine .taken (h.change (fresh _ ?_ "" (by decide) _ String.append_empty.symm) _)
        rw [mentioned?, told, remark]
        rfl
  next noComment =>
    cases read : readSampleLine (Text.trim line) with
    | error cause => exact .refused cause
    | ok sample =>
        have silent : comment? line = none := by
          rw [comment?]
          split
          next text hash => exact absurd hash (noComment text)
          next => rfl
        refine h.sample (fresh sample.name ?_)
        rw [mentioned?, silent, sampleLine?, read]
        rfl

theorem readLines (h : b.Behind front other) {lines : List (List Char)}
    (unrelated : Unrelated (front.map Sketch.name) lines) (before next : Nat)
    {families : List Family} (parsed : (readLines next b lines).families = .ok families) :
    Exposition.readLines (before + next) other lines =
      ⟨.ok (front.map Sketch.finish ++ families),
        (Exposition.readLines next b lines).skipped.map (Problem.after before)⟩ := by
  -- Both builders go on alike: a line is taken, or refused, by both.
  induction lines generalizing b other next with
  | nil =>
      rw [Exposition.readLines, h.finish, Except.ok.inj parsed]
      rfl
  | cons line rest ih =>
      obtain ⟨here, later⟩ := List.forall_mem_cons.mp unrelated
      have alike := h.readLine (List.forall_mem_singleton.mpr here)
      by_cases opened : OpenLine line
      · rw [readLines_open opened] at parsed
        cases parsed
      · generalize mine : Exposition.readLine b line = outcome at alike
        generalize others : Exposition.readLine other line = otherOutcome at alike
        cases alike with
        | taken behind =>
            rw [readLines_take mine] at parsed ⊢
            rw [readLines_take others]
            exact ih behind later (next + 1) parsed
        | refused cause =>
            rw [readLines_skip mine opened] at parsed ⊢
            rw [readLines_skip others opened, Nat.add_assoc, ih h later (next + 1) parsed]
            rfl

end Behind

end Builder

theorem Run.readLines_append {strict : Prop} {b middle : Builder} {lines : List (List Char)}
    (run : Run strict b lines middle) (next : Nat) (after : List (List Char)) :
    readLines next b (lines ++ after) =
      ⟨(readLines (next + lines.length) middle after).families,
        (readLines next b lines).skipped ++
          (readLines (next + lines.length) middle after).skipped⟩ := by
  induction run generalizing next with
  | nil => rfl
  | @take _ _ _ line rest read _ ih =>
      have number : next + 1 + rest.length = next + (line :: rest).length := by
        rw [List.length_cons]
        omega
      rw [List.cons_append]
      simp only [readLines, read]
      rw [ih, number]
  | @skip _ _ line rest _ _ failed mild _ ih =>
      have number : next + 1 + rest.length = next + (line :: rest).length := by
        rw [List.length_cons]
        omega
      rw [List.cons_append]
      simp only [readLines, failed, mild]
      rw [ih, number]
      rfl

theorem Run.exists_sketches {strict : Prop} {b last : Builder} {lines : List (List Char)}
    (run : Run strict b lines last) {sketches : List Sketch} (shows : b.Shows sketches) :
    ∃ later, last.Shows later := by
  induction run generalizing sketches with
  | nil => exact ⟨sketches, shows⟩
  | @take b _ _ line _ read _ ih =>
      have heard := heard_readLine b line
      rw [read] at heard
      cases heard with
      | said => exact ih (shows.change _ _)
      | silent => exact ih shows
  | skip _ _ _ _ ih => exact ih shows

/-- A text that has nothing to do with the families of one before it adds its own families to
theirs, and its own records, with the numbers that its lines have now. -/
theorem read_append (reader : Reader) (first second : String) (families others : List Family)
    (ended : Text.Ended first.toList) (parsed : (reader.read first).1 = .ok families)
    (alsoParsed : (reader.read second).1 = .ok others)
    (unrelated : Unrelated (families.map Family.name) (Text.lines second.toList)) :
    reader.read (first ++ second) =
      (.ok (families ++ others),
        ⟨(reader.read first).2.skipped ++
          (reader.read second).2.skipped.map (Problem.after (Text.lines first.toList).length)⟩) := by
  obtain ⟨middle, run, rfl⟩ := exists_run_of_readLines parsed
  obtain ⟨front, shows⟩ := run.exists_sketches .empty
  have names : middle.finish.map Family.name = front.map Sketch.name := by
    rw [shows.finish, List.map_map]
    rfl
  have behind : Builder.empty.Behind front middle := ⟨[], .empty, by rwa [List.append_nil]⟩
  have later := behind.readLines (names ▸ unrelated) (Text.lines first.toList).length 1 alsoParsed
  rw [← shows.finish, Nat.add_comm] at later
  simp only [Reader.read, read]
  rw [String.toList_append, Text.lines_append_of_ended ended, run.readLines_append, later]

def waitingLines : List (List Char) :=
  ["# TYPE wait histogram", "wait_bucket\x7ble=\"1\"\x7d 1", "junk"].map String.toList

def otherLines : List (List Char) :=
  ["# TYPE wait_all histogram", "wait_all_sum 2", "junk", "wait_max 3",
    "wait_all_bucket 4"].map String.toList

theorem read_append_waiting :
    ∃ families others,
      Text.Ended (textOf waitingLines).toList ∧
      (Reader.new.read (textOf waitingLines)).1 = .ok families ∧
      (Reader.new.read (textOf otherLines)).1 = .ok others ∧
      Unrelated (families.map Family.name) (Text.lines (textOf otherLines).toList) ∧
      (Reader.new.read (textOf waitingLines ++ textOf otherLines)).1 = .ok (families ++ others) ∧
      (families ++ others).map Family.name = ["wait", "wait_all", "wait_max"] ∧
      (Reader.new.read (textOf waitingLines ++ textOf otherLines)).2.skipped.map Problem.line =
        [3, 6, 8] := by
  have cut : Text.lines (textOf waitingLines).toList = waitingLines :=
    lines_textOf (by decide +kernel)
  have cutOthers : Text.lines (textOf otherLines).toList = otherLines :=
    lines_textOf (by decide +kernel)
  obtain ⟨families, parsed⟩ : ∃ families, (read (textOf waitingLines)).families = .ok families := by
    rw [read, readLines_ok_iff, cut]
    decide +kernel
  obtain ⟨others, alsoParsed⟩ : ∃ others, (read (textOf otherLines)).families = .ok others := by
    rw [read, readLines_ok_iff, cutOthers]
    decide +kernel
  obtain ⟨⟨last, shows, same⟩, numbers⟩ := read_heard parsed
  obtain ⟨⟨alsoLast, alsoShows, alsoSame⟩, alsoNumbers⟩ := read_heard alsoParsed
  have names : families.map Family.name = ["wait"] := by
    rw [same, names_of_shows shows, cut]
    decide +kernel
  have alsoNames : others.map Family.name = ["wait_all", "wait_max"] := by
    rw [alsoSame, names_of_shows alsoShows, cutOthers]
    decide +kernel
  have ended : Text.Ended (textOf waitingLines).toList := by
    rw [textOf, String.toList_ofList]
    decide +kernel
  have unrelated : Unrelated (families.map Family.name) (Text.lines (textOf otherLines).toList) := by
    rw [names, cutOthers]
    decide +kernel
  have whole := read_append .new _ _ families others ended parsed alsoParsed unrelated
  refine ⟨families, others, ended, parsed, alsoParsed, unrelated, congrArg Prod.fst whole, ?_, ?_⟩
  · rw [List.map_append, names, alsoNames]
    rfl
  · have moved : (List.map (Problem.after 3) (read (textOf otherLines)).skipped).map Problem.line =
        ((read (textOf otherLines)).skipped.map Problem.line).map (3 + ·) := by
      rw [List.map_map, List.map_map]
      rfl
    rw [whole, cut]
    change List.map Problem.line ((read (textOf waitingLines)).skipped ++
      List.map (Problem.after 3) (read (textOf otherLines)).skipped) = _
    rw [List.map_append, numbers, moved, alsoNumbers, cut, cutOthers]
    decide +kernel

end ProxyMonitor.Exposition
