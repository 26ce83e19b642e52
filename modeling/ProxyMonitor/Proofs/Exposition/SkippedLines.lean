import ProxyMonitor.Proofs.Exposition.Hearing

/-! Lines that are skipped leave no trace but their record: a text without them reads the same. -/

namespace ProxyMonitor.Exposition

/-- A line that is neither blank nor a comment. -/
def TriesSample (line : List Char) : Prop :=
  Text.trim line ≠ [] ∧ (Text.trim line).head? ≠ some '#'

def emptyLines (chosen : List Nat) : Nat → List (List Char) → List (List Char)
  | _, [] => []
  | next, line :: rest =>
    (if next ∈ chosen then [] else line) :: emptyLines chosen (next + 1) rest

def emptied (chosen : List Nat) (text : String) : String :=
  String.ofList (['\n'].intercalate (emptyLines chosen 1 (text.toList.splitOn '\n')))

theorem readLine_nil (b : Builder) : readLine b [] = .ok b := rfl

theorem readLines_append_nil (next : Nat) (b : Builder) (lines : List (List Char)) :
    readLines next b (lines ++ [[]]) = readLines next b lines := by
  induction lines generalizing next b with
  | nil => rfl
  | cons line rest ih => simp only [List.cons_append, readLines, ih]

theorem readLines_splitOn (cs : List Char) :
    readLines 1 .empty (cs.splitOn '\n') = readLines 1 .empty (Text.lines cs) := by
  rcases Text.splitOn_eq_lines_or cs with same | more
  · rw [same]
  · rw [more, readLines_append_nil]

theorem emptyLines_ne_nil {chosen : List Nat} {next : Nat} {lines : List (List Char)}
    (nonempty : lines ≠ []) : emptyLines chosen next lines ≠ [] := by
  cases lines with
  | nil => exact absurd rfl nonempty
  | cons line rest => exact List.cons_ne_nil _ _

theorem newline_notMem_emptyLines {chosen : List Nat} {next : Nat} {lines : List (List Char)}
    (whole : ∀ line ∈ lines, '\n' ∉ line) : ∀ line ∈ emptyLines chosen next lines, '\n' ∉ line := by
  induction lines generalizing next with
  | nil => simp [emptyLines]
  | cons line rest ih =>
      obtain ⟨here, later⟩ := List.forall_mem_cons.mp whole
      refine List.forall_mem_cons.mpr ⟨?_, ih later⟩
      split
      · exact List.not_mem_nil
      · exact here

theorem read_emptied_eq (chosen : List Nat) (text : String) :
    read (emptied chosen text) =
      readLines 1 .empty (emptyLines chosen 1 (text.toList.splitOn '\n')) := by
  have whole : ∀ piece ∈ text.toList.splitOn '\n', '\n' ∉ piece :=
    fun _ => Text.newline_notMem_of_mem_splitOn
  rw [read, emptied, String.toList_ofList, ← readLines_splitOn,
    List.splitOn_intercalate _ (newline_notMem_emptyLines whole)
      (emptyLines_ne_nil (List.splitOn_ne_nil _ _))]

theorem triesSample_of_error {b : Builder} {line : List Char} {cause : Cause}
    (failed : readLine b line = .error cause) : TriesSample line := by
  rw [readLine] at failed
  split at failed
  next => cases failed
  next => cases failed
  next notBlank noComment =>
    refine ⟨notBlank, fun hash => ?_⟩
    obtain ⟨text, hash⟩ := List.head?_eq_some_iff.mp hash
    exact noComment text hash

/-- The problem has the number of a line that tries to be a sample; the first line has number
`next`. -/
def Names (problem : Problem) (next : Nat) (lines : List (List Char)) : Prop :=
  ∃ before line after, lines = before ++ line :: after ∧ problem.line = next + before.length ∧
    TriesSample line

section

variable {problem : Problem} {next : Nat} {lines : List (List Char)}

theorem Names.le (h : Names problem next lines) : next ≤ problem.line := by
  obtain ⟨before, line, after, -, number, -⟩ := h
  omega

theorem Names.cons (h : Names problem (next + 1) lines) (line : List Char) :
    Names problem next (line :: lines) := by
  obtain ⟨before, other, after, rfl, number, tries⟩ := h
  refine ⟨line :: before, other, after, rfl, ?_, tries⟩
  rw [number, List.length_cons]
  omega

end

theorem skipped_numbers (next : Nat) (b : Builder) (lines : List (List Char)) :
    (∀ problem ∈ (readLines next b lines).skipped, Names problem next lines) ∧
      ((readLines next b lines).skipped.map Problem.line).Pairwise (· < ·) := by
  induction lines generalizing next b with
  | nil => simp [readLines]
  | cons line rest ih =>
      by_cases opened : OpenLine line
      · simp [readLines_open opened]
      · cases outcome : readLine b line with
        | ok middle =>
            obtain ⟨named, ordered⟩ := ih (next + 1) middle
            rw [readLines_take outcome]
            exact ⟨fun problem member => (named problem member).cons line, ordered⟩
        | error cause =>
            obtain ⟨named, ordered⟩ := ih (next + 1) b
            rw [readLines_skip outcome opened]
            constructor
            · refine List.forall_mem_cons.mpr ⟨?_, fun problem member => ?_⟩
              · exact ⟨[], line, rest, rfl, rfl, triesSample_of_error outcome⟩
              · exact (named problem member).cons line
            · refine List.pairwise_cons.mpr ⟨fun number member => ?_, ordered⟩
              obtain ⟨problem, inside, rfl⟩ := List.mem_map.mp member
              exact (named problem inside).le

theorem readLines_emptyLines {chosen : List Nat} {next : Nat} {b : Builder}
    {lines : List (List Char)} {families : List Family}
    (parsed : (readLines next b lines).families = .ok families)
    (among : ∀ number ∈ chosen, next ≤ number →
      number ∈ (readLines next b lines).skipped.map Problem.line) :
    readLines next b (emptyLines chosen next lines) =
      ⟨.ok families,
        (readLines next b lines).skipped.filter fun problem => problem.line ∉ chosen⟩ := by
  induction lines generalizing next b with
  | nil =>
      cases parsed
      rfl
  | cons line rest ih =>
      by_cases opened : OpenLine line
      · rw [readLines_open opened] at parsed
        cases parsed
      · cases outcome : readLine b line with
        | ok middle =>
            rw [readLines_take outcome] at parsed among ⊢
            -- Chosen lines have records, and those still to come have later numbers.
            have kept : next ∉ chosen := by
              intro member
              obtain ⟨problem, inside, number⟩ :=
                List.mem_map.mp (among next member (Nat.le_refl next))
              have later := ((skipped_numbers (next + 1) middle rest).1 problem inside).le
              omega
            rw [emptyLines, if_neg kept, readLines_take outcome]
            exact ih parsed fun number member later =>
              among number member (Nat.le_of_succ_le later)
        | error cause =>
            rw [readLines_skip outcome opened] at parsed among ⊢
            have later := ih parsed fun number member later => by
              have recorded := among number member (Nat.le_of_succ_le later)
              rcases List.mem_cons.mp recorded with same | inside
              · obtain rfl : number = next := same
                exact absurd later (Nat.not_succ_le_self number)
              · exact inside
            rw [emptyLines, List.filter_cons]
            by_cases taken : next ∈ chosen
            · rw [if_pos taken, readLines_take (readLine_nil b), later]
              simp [taken]
            · rw [if_neg taken, readLines_skip outcome opened, later]
              simp [taken]

/-- The records of a text have increasing numbers of lines that try to be samples. Emptying any of
these lines keeps all families, and drops the records of these lines only. -/
theorem read_emptied (reader : Reader) (text : String) (families : List Family)
    (parsed : (reader.read text).1 = .ok families) :
    ((reader.read text).2.skipped.map Problem.line).Pairwise (· < ·) ∧
    (∀ problem ∈ (reader.read text).2.skipped, Names problem 1 (Text.lines text.toList)) ∧
    ∀ (later : Reader) (chosen : List Nat),
      chosen ⊆ (reader.read text).2.skipped.map Problem.line →
        later.read (emptied chosen text) =
          (.ok families,
            ⟨(reader.read text).2.skipped.filter fun problem => problem.line ∉ chosen⟩) := by
  obtain ⟨named, ordered⟩ := skipped_numbers 1 .empty (Text.lines text.toList)
  refine ⟨ordered, named, fun later chosen among => ?_⟩
  have same := readLines_splitOn text.toList
  have parsed : (readLines 1 .empty (text.toList.splitOn '\n')).families = .ok families := by
    rw [same]
    exact parsed
  have among : ∀ number ∈ chosen, 1 ≤ number →
      number ∈ (readLines 1 .empty (text.toList.splitOn '\n')).skipped.map Problem.line := by
    intro number member _
    rw [same]
    exact among member
  have reading := readLines_emptyLines parsed among
  rw [Reader.read, read_emptied_eq, reading, same]
  rfl

def spoiledLines : List (List Char) :=
  ["# TYPE wait histogram", "wait_bucket\x7bm=\"a\"\x7d 1", "junk", "wait_bucket\x7ble=\"1\"\x7d 1",
    "wait_bucket\x7ble=\"x\"\x7d 2"].map String.toList

def mendedLines : List (List Char) :=
  ["# TYPE wait histogram", "", "junk", "wait_bucket\x7ble=\"1\"\x7d 1", ""].map String.toList

theorem read_emptied_spoiled :
    ∃ families, (Reader.new.read (textOf spoiledLines)).1 = .ok families ∧
      (Reader.new.read (textOf spoiledLines)).2.skipped.map Problem.line = [2, 3, 5] ∧
      emptied [2, 5] (textOf spoiledLines) = textOf mendedLines ∧
      (Reader.new.read (textOf mendedLines)).1 = .ok families ∧
      (Reader.new.read (textOf mendedLines)).2.skipped.map Problem.line = [3] := by
  have cut : Text.lines (textOf spoiledLines).toList = spoiledLines :=
    lines_textOf (by decide +kernel)
  obtain ⟨families, parsed⟩ :
      ∃ families, (read (textOf spoiledLines)).families = .ok families := by
    rw [read, readLines_ok_iff, cut]
    decide +kernel
  have numbers :
      (Reader.new.read (textOf spoiledLines)).2.skipped.map Problem.line = [2, 3, 5] := by
    refine (read_heard parsed).2.trans ?_
    rw [cut]
    decide +kernel
  have mended : emptied [2, 5] (textOf spoiledLines) = textOf mendedLines := by
    rw [emptied, textOf, String.toList_ofList]
    exact congrArg String.ofList (by decide +kernel)
  obtain ⟨-, -, without⟩ := read_emptied .new (textOf spoiledLines) families parsed
  have reading := without .new [2, 5] (by rw [numbers]; decide)
  rw [mended] at reading
  refine ⟨families, parsed, numbers, mended, by rw [reading], ?_⟩
  rw [reading]
  have kept := congrArg (List.filter (· ∉ [2, 5])) numbers
  rw [List.filter_map] at kept
  exact kept

end ProxyMonitor.Exposition
