import ProxyMonitor.Exposition.Read
import ProxyMonitor.Proofs.Exposition.LineReading

/-! A reading fails at the first line that leaves its label set open, and at nothing else. -/

namespace ProxyMonitor.Exposition

/-- A text that ends outside quotes; a backslash in quotes hides the next character. -/
inductive Balanced : List Char → Prop where
  | nil : Balanced []
  | plain {c : Char} {rest : List Char} (noQuote : c ≠ '"') (later : Balanced rest) :
      Balanced (c :: rest)
  | quoted {written decoded rest : List Char} (inside : QuotedText written decoded)
      (later : Balanced rest) : Balanced ('"' :: written ++ '"' :: rest)

def Unclosed (cs : List Char) : Prop :=
  ∀ before after, cs = before ++ '}' :: after → ¬ Balanced before

/-- A line that begins with a metric name and a label set that stays open. -/
inductive OpenLine (line : List Char) : Prop where
  | mk {name rest : List Char} (trimmed : Text.trim line = name ++ '{' :: rest)
      (isName : MetricName name) (unclosed : Unclosed rest) : OpenLine line

def Scan.opening : Scan → List Char
  | .outside => []
  | .quoted => ['"']
  | .escaped => ['"', '\\']

theorem Balanced.of_quote {cs : List Char} (h : Balanced ('"' :: cs)) :
    ∃ written decoded rest,
      cs = written ++ '"' :: rest ∧ QuotedText written decoded ∧ Balanced rest := by
  generalize whole : '"' :: cs = text at h
  cases h with
  | nil => cases whole
  | plain noQuote later =>
      obtain ⟨rfl, -⟩ := List.cons.inj whole
      exact absurd rfl noQuote
  | quoted inside later =>
      obtain ⟨-, rfl⟩ := List.cons.inj whole
      exact ⟨_, _, _, rfl, inside, later⟩

theorem Balanced.quote_plain {c : Char} {cs : List Char} (noQuote : c ≠ '"') (noEscape : c ≠ '\\')
    (h : Balanced ('"' :: cs)) : Balanced ('"' :: c :: cs) := by
  obtain ⟨written, decoded, rest, rfl, inside, later⟩ := h.of_quote
  exact .quoted (.plain noQuote noEscape inside) later

theorem Balanced.quote_escape {c : Char} {cs : List Char} (h : Balanced ('"' :: cs)) :
    Balanced ('"' :: '\\' :: c :: cs) := by
  obtain ⟨written, decoded, rest, rfl, inside, later⟩ := h.of_quote
  exact .quoted (.escape inside) later

theorem balanced_of_splitLabelSet {scan : Scan} {cs inside tail : List Char}
    (h : splitLabelSet? scan cs = some (inside, tail)) : Balanced (scan.opening ++ inside) := by
  -- In quotes, what was found so far is balanced once the open mark stands before it.
  fun_induction splitLabelSet? scan cs generalizing inside with
  | case1 => cases h
  | case2 c rest ih =>
      obtain ⟨⟨first, second⟩, found, same⟩ := Option.map_eq_some_iff.mp h
      cases same
      exact (ih found).quote_escape
  | case3 c rest next =>
      rename_i ih
      obtain ⟨⟨first, second⟩, found, same⟩ := Option.map_eq_some_iff.mp h
      cases same
      have later := ih found
      by_cases escape : c = '\\'
      · rw [show next = .escaped from if_pos escape] at later
        subst escape
        exact later
      · by_cases quote : c = '"'
        · rw [show next = .outside from (if_neg escape).trans (if_pos quote)] at later
          subst quote
          exact .quoted .nil later
        · rw [show next = .quoted from (if_neg escape).trans (if_neg quote)] at later
          exact later.quote_plain quote escape
  | case4 rest =>
      cases h
      exact .nil
  | case5 c rest noBrace ih =>
      obtain ⟨⟨first, second⟩, found, same⟩ := Option.map_eq_some_iff.mp h
      cases same
      have later := ih found
      by_cases quote : c = '"'
      · rw [if_pos quote] at later
        subst quote
        exact later
      · rw [if_neg quote] at later
        exact .plain quote later

theorem exists_splitLabelSet {before : List Char} (balanced : Balanced before)
    (after : List Char) :
    ∃ parts, splitLabelSet? .outside (before ++ '}' :: after) = some parts := by
  induction balanced with
  | nil => exact ⟨_, if_pos rfl⟩
  | @plain c rest noQuote later ih =>
      obtain ⟨parts, found⟩ := ih
      rw [List.cons_append, splitLabelSet?, if_neg noQuote, found]
      by_cases brace : c = '}'
      · exact ⟨_, if_pos brace⟩
      · exact ⟨_, if_neg brace⟩
  | @quoted written decoded rest inside later ih =>
      obtain ⟨parts, found⟩ := ih
      have whole : '"' :: written ++ '"' :: rest ++ '}' :: after =
          '"' :: written ++ ['"'] ++ (rest ++ '}' :: after) := by
        simp only [List.cons_append, List.append_assoc, List.nil_append]
      rw [whole, passed_quoted inside, found]
      exact ⟨_, rfl⟩

theorem splitLabelSet_eq_none_iff {cs : List Char} :
    splitLabelSet? .outside cs = none ↔ Unclosed cs := by
  constructor
  · intro missing before after same balanced
    obtain ⟨parts, found⟩ := exists_splitLabelSet balanced after
    rw [← same, missing] at found
    cases found
  · intro unclosed
    cases found : splitLabelSet? .outside cs with
    | none => rfl
    | some parts =>
        exact absurd (balanced_of_splitLabelSet found)
          (unclosed parts.1 parts.2 (eq_of_splitLabelSet found))

def Mild {α : Type} (outcome : Except Cause α) : Prop := outcome ≠ .error .unterminatedLabelSet

section Mild

variable {α β : Type}

@[simp]
theorem mild_ok (a : α) : Mild (.ok a) := nofun

@[simp]
theorem mild_error_iff {cause : Cause} :
    Mild (.error cause : Except Cause α) ↔ cause ≠ .unterminatedLabelSet := by
  simp [Mild]

theorem Mild.bind {first : Except Cause α} {further : α → Except Cause β} (mild : Mild first)
    (later : ∀ a, Mild (further a)) : Mild (first >>= further) := by
  cases first with
  | error cause => exact mild_error_iff.mpr (mild_error_iff.mp mild)
  | ok a => exact later a

theorem readPair_mild (cs : List Char) : Mild (readPair cs) := by
  simp only [readPair]
  split
  · simp
  · split
    · split
      · split <;> simp
      · simp
    · simp

theorem readSeparator_mild (cs : List Char) : Mild (readSeparator cs) := by
  simp only [readSeparator]
  split <;> simp

theorem readPairs_mild (labels : Labels) (cs : List Char) : Mild (readPairs labels cs) := by
  fun_induction readPairs labels cs with
  | case1 => exact mild_ok _
  | case2 labels cs nonempty cause pairRead => simpa [pairRead] using readPair_mild cs
  | case3 => simp
  | case4 labels cs nonempty pair rest pairRead fresh cause separatorRead =>
      simpa [separatorRead] using readSeparator_mild rest
  | case5 labels cs nonempty pair rest pairRead fresh next separatorRead ih => exact ih

theorem readLabels_mild (cs : List Char) : Mild (readLabels cs) := readPairs_mild _ _

theorem readValue_mild (token : List Char) : Mild (readValue token) := by
  rw [readValue]
  split <;> simp

theorem readTail_mild (cs : List Char) : Mild (readTail cs) := by
  rw [readTail]
  split
  · simp
  · refine (readValue_mild _).bind fun value => ?_
    split
    · simp
    · split
      · simp
      · split <;> simp

namespace Builder

theorem readLabelValue_mild (line : SampleLine) (label : String) :
    Mild (readLabelValue line label) := by
  rw [readLabelValue]
  split
  · simp
  · exact readValue_mild _

theorem groupTarget_mild (b : Builder) (line : SampleLine) : Mild (b.groupTarget line) := by
  rw [groupTarget]
  split
  · exact (readLabelValue_mild _ _).bind fun _ => mild_ok _
  · split
    · exact (readLabelValue_mild _ _).bind fun _ => mild_ok _
    · exact mild_ok _

theorem sample_mild (b : Builder) (line : SampleLine) : Mild (b.sample line) := by
  refine (b.groupTarget_mild line).bind fun target => ?_
  cases target <;> exact mild_ok _

end Builder

end Mild

theorem readSampleLine_brace {name : List Char} (isName : MetricName name) (rest : List Char) :
    readSampleLine (name ++ '{' :: rest) = .error .unterminatedLabelSet ↔ Unclosed rest := by
  have stopped : ∀ d ∈ ('{' :: rest).head?, isMetricChar d = false := by
    intro d head
    obtain rfl : '{' = d := by simpa using head
    decide
  obtain ⟨taken, left⟩ := takeWhile_run ('{' :: rest) isName.all_isMetricChar stopped
  rw [← splitLabelSet_eq_none_iff]
  simp only [readSampleLine, taken, left, isMetricName_iff.mpr isName]
  cases found : splitLabelSet? .outside rest with
  | none => simp
  | some parts =>
      obtain ⟨inside, tail⟩ := parts
      have mild := (readLabels_mild inside).bind fun labels =>
        (readTail_mild tail).bind fun value =>
          mild_ok (SampleLine.mk (String.ofList name) labels value)
      simpa [Mild] using mild

theorem readSampleLine_eq_unterminated_iff {line : List Char} :
    readSampleLine line = .error .unterminatedLabelSet ↔
      ∃ name rest, line = name ++ '{' :: rest ∧ MetricName name ∧ Unclosed rest := by
  constructor
  · intro failed
    have parts : line.takeWhile isMetricChar ++ line.dropWhile isMetricChar = line :=
      List.takeWhile_append_dropWhile
    have read := failed
    simp only [readSampleLine] at read
    split at read
    · cases read
    · rename_i named
      have isName : MetricName (line.takeWhile isMetricChar) :=
        isMetricName_iff.mp (by simpa using named)
      split at read
      next rest brace =>
        rw [brace] at parts
        rw [← parts, readSampleLine_brace isName] at failed
        exact ⟨_, rest, parts.symm, isName, failed⟩
      next => cases read
      next c tail noBrace split =>
        split at read
        · exact absurd read ((readTail_mild tail).bind fun _ => mild_ok _)
        · cases read
  · rintro ⟨name, rest, rfl, isName, unclosed⟩
    exact (readSampleLine_brace isName rest).mpr unclosed

theorem openLine_iff {line : List Char} :
    OpenLine line ↔ readSampleLine (Text.trim line) = .error .unterminatedLabelSet := by
  rw [readSampleLine_eq_unterminated_iff]
  constructor
  · intro opened
    obtain ⟨trimmed, isName, unclosed⟩ := opened
    exact ⟨_, _, trimmed, isName, unclosed⟩
  · rintro ⟨name, rest, trimmed, isName, unclosed⟩
    exact ⟨trimmed, isName, unclosed⟩

instance (line : List Char) : Decidable (OpenLine line) := decidable_of_iff _ openLine_iff.symm

theorem readLine_eq_unterminated_iff {b : Builder} {line : List Char} :
    readLine b line = .error .unterminatedLabelSet ↔ OpenLine line := by
  rw [openLine_iff, readLine]
  split
  next blank => simp [blank, readSampleLine, isMetricName]
  next text comment =>
    rw [comment, readSampleLine, List.takeWhile_cons_of_neg (by decide)]
    simp [isMetricName]
  next =>
    cases read : readSampleLine (Text.trim line) with
    | error cause => simp [bind, Except.bind]
    | ok sample => simpa [Mild, bind, Except.bind] using b.sample_mild sample

theorem Cause.isFatal_iff {cause : Cause} :
    cause.isFatal = true ↔ cause = .unterminatedLabelSet := by
  cases cause <;> simp [isFatal]

section Steps

variable {b middle : Builder} {line : List Char} {cause : Cause}

theorem readLines_take (outcome : readLine b line = .ok middle) (next : Nat)
    (rest : List (List Char)) :
    readLines next b (line :: rest) = readLines (next + 1) middle rest := by
  simp only [readLines, outcome]

theorem readLines_skip (outcome : readLine b line = .error cause) (closed : ¬ OpenLine line)
    (next : Nat) (rest : List (List Char)) :
    readLines next b (line :: rest) =
      ⟨(readLines (next + 1) b rest).families,
        ⟨next, cause⟩ :: (readLines (next + 1) b rest).skipped⟩ := by
  have mild : cause.isFatal = false := by
    rw [Bool.eq_false_iff]
    intro fatal
    rw [Cause.isFatal_iff.mp fatal, readLine_eq_unterminated_iff] at outcome
    exact closed outcome
  simp only [readLines, outcome, mild]
  rfl

theorem readLines_open (opened : OpenLine line) (next : Nat) (b : Builder)
    (rest : List (List Char)) :
    readLines next b (line :: rest) = ⟨.error ⟨next, .unterminatedLabelSet⟩, []⟩ := by
  simp only [readLines, readLine_eq_unterminated_iff.mpr opened]
  rfl

end Steps

theorem readLines_append_open {line : List Char} (opened : OpenLine line)
    (before after : List (List Char)) (closed : ∀ earlier ∈ before, ¬ OpenLine earlier) (next : Nat)
    (b : Builder) :
    readLines next b (before ++ line :: after) =
      ⟨.error ⟨next + before.length, .unterminatedLabelSet⟩,
        (readLines next b before).skipped⟩ := by
  induction before generalizing next b with
  | nil => exact readLines_open opened next b after
  | cons earlier rest ih =>
      obtain ⟨here, later⟩ := List.forall_mem_cons.mp closed
      have number : next + 1 + rest.length = next + (earlier :: rest).length := by
        rw [List.length_cons]
        omega
      rw [List.cons_append]
      cases outcome : readLine b earlier with
      | ok middle => rw [readLines_take outcome, readLines_take outcome, ih later, number]
      | error cause =>
          rw [readLines_skip outcome here, readLines_skip outcome here, ih later, number]

theorem readLines_ok_iff (next : Nat) (b : Builder) (lines : List (List Char)) :
    (∃ families, (readLines next b lines).families = .ok families) ↔
      ∀ line ∈ lines, ¬ OpenLine line := by
  induction lines generalizing next b with
  | nil => exact ⟨fun _ => by simp, fun _ => ⟨_, rfl⟩⟩
  | cons line rest ih =>
      rw [List.forall_mem_cons]
      by_cases opened : OpenLine line
      · simp [readLines_open opened, opened]
      · cases outcome : readLine b line with
        | ok middle => simp [readLines_take outcome, ih, opened]
        | error cause => simp [readLines_skip outcome opened, ih, opened]

def textOf (lines : List (List Char)) : String := String.ofList (lines.flatMap (· ++ ['\n']))

theorem lines_textOf {lines : List (List Char)} (h : ∀ line ∈ lines, '\n' ∉ line) :
    Text.lines (textOf lines).toList = lines := by
  rw [textOf, String.toList_ofList]
  exact Text.lines_flatMap h

/-- A reading fails if and only if some label set stays open. The first such line has its number in
the error, and what is skipped is what the lines before it skip by themselves. -/
theorem read_fails_at_first_open (reader : Reader) (text : String) :
    ((∃ problem, (reader.read text).1 = .error problem) ↔
      ∃ line ∈ Text.lines text.toList, OpenLine line) ∧
    ∀ before line after, Text.lines text.toList = before ++ line :: after → OpenLine line →
      (∀ earlier ∈ before, ¬ OpenLine earlier) →
      reader.read text =
          (.error ⟨before.length + 1, .unterminatedLabelSet⟩, (reader.read (textOf before)).2) ∧
        ∃ families, (reader.read (textOf before)).1 = .ok families := by
  constructor
  · have ended := not_congr (readLines_ok_iff 1 .empty (Text.lines text.toList))
    rw [Reader.read, read]
    cases outcome : (readLines 1 .empty (Text.lines text.toList)).families with
    | ok families => simpa [outcome] using ended
    | error problem => simpa [outcome] using ended
  · intro before line after split opened closed
    have whole : Text.lines (textOf before).toList = before := by
      refine lines_textOf fun earlier member => ?_
      have inside : earlier ∈ Text.lines text.toList := by
        rw [split]
        exact List.mem_append_left _ member
      exact Text.newline_notMem_of_mem_lines inside
    rw [Reader.read, Reader.read, read, read, split, whole,
      readLines_append_open opened before after closed, Nat.add_comm 1]
    exact ⟨rfl, (readLines_ok_iff 1 .empty before).mpr closed⟩

def haltingLines : List (List Char) :=
  ["junk", "# up\x7b", "up\x7bmode=\"\x7d\\\"", "down\x7b"].map String.toList

theorem read_fails_at_first_open_halting :
    OpenLine "up\x7bmode=\"\x7d\\\"".toList ∧
      Reader.new.read (textOf haltingLines) =
        (.error ⟨3, .unterminatedLabelSet⟩, ⟨[⟨1, .missingValue⟩]⟩) := by
  have opened : OpenLine "up\x7bmode=\"\x7d\\\"".toList := by decide +kernel
  have cut : Text.lines (textOf haltingLines).toList = haltingLines :=
    lines_textOf (by decide +kernel)
  have cutBefore : Text.lines (textOf (haltingLines.take 2)).toList = haltingLines.take 2 :=
    lines_textOf (by decide +kernel)
  have skipped : (Reader.new.read (textOf (haltingLines.take 2))).2 = ⟨[⟨1, .missingValue⟩]⟩ := by
    rw [Reader.read, read, cutBefore]
    exact congrArg Reader.mk (by decide +kernel)
  obtain ⟨fails, -⟩ := (read_fails_at_first_open .new (textOf haltingLines)).2 (haltingLines.take 2)
    _ ["down\x7b".toList] cut opened (by decide +kernel)
  exact ⟨opened, fails.trans (congrArg _ skipped)⟩

end ProxyMonitor.Exposition
