import Mathlib.Data.List.TakeWhile
import ProxyMonitor.Text

namespace ProxyMonitor.Text

def Blanks (cs : List Char) : Prop := ∀ c ∈ cs, isBlank c = true

def IsWord (cs : List Char) : Prop := cs ≠ [] ∧ ∀ c ∈ cs, isBlank c = false

instance (cs : List Char) : Decidable (IsWord cs) :=
  decidable_of_iff (cs ≠ [] ∧ cs.all (!isBlank ·) = true) (by simp [IsWord])

def BeginsSolid (cs : List Char) : Prop := ∀ c ∈ cs.head?, isBlank c = false

def EndsSolid (cs : List Char) : Prop := ∀ c ∈ cs.getLast?, isBlank c = false

theorem blanks_nil : Blanks [] := by
  intro c member
  cases member

theorem IsWord.beginsSolid {word : List Char} (h : IsWord word) (rest : List Char) :
    BeginsSolid (word ++ rest) := by
  obtain ⟨nonempty, solid⟩ := h
  intro c first
  cases word with
  | nil => exact absurd rfl nonempty
  | cons head tail =>
      obtain rfl : head = c := by simpa using first
      exact solid head List.mem_cons_self

theorem endsSolid_append {cs : List Char} (h : EndsSolid cs) (nonempty : cs ≠ [])
    (before : List Char) : EndsSolid (before ++ cs) := by
  intro c last
  rw [List.getLast?_append, List.getLast?_eq_some_getLast nonempty, Option.some_or,
    ← List.getLast?_eq_some_getLast nonempty] at last
  exact h c last

theorem endsSolid_of_suffix {cs piece : List Char} (h : EndsSolid cs) (suffix : piece <:+ cs) :
    EndsSolid piece := by
  obtain ⟨before, rfl⟩ := suffix
  intro c last
  refine h c ?_
  rw [List.getLast?_append, Option.mem_def.mp last]
  rfl

theorem IsWord.endsSolid {word : List Char} (h : IsWord word) (before : List Char) :
    EndsSolid (before ++ word) := by
  obtain ⟨nonempty, solid⟩ := h
  exact endsSolid_append (fun c last => solid c (List.mem_of_getLast? last)) nonempty before

/-- No blank lies between the ASCII space and the first control character beyond ASCII. -/
theorem isBlank_range {c : Char} (blank : isBlank c = true) :
    c.val.toNat ≤ 32 ∨ 133 ≤ c.val.toNat := by
  simp only [isBlank, decide_eq_true_eq, UInt32.le_iff_toNat_le, ← UInt32.toNat_inj,
    UInt32.reduceToNat] at blank
  omega

theorem trimStart_blanks_append {blanks : List Char} (h : Blanks blanks) (rest : List Char) :
    trimStart (blanks ++ rest) = trimStart rest := List.dropWhile_append_of_pos h

theorem trimStart_eq_self {cs : List Char} (h : BeginsSolid cs) : trimStart cs = cs := by
  cases cs with
  | nil => rfl
  | cons c rest => exact List.dropWhile_cons_of_neg (by simp [h c rfl])

theorem trimStart_blanks {blanks : List Char} (h : Blanks blanks) : trimStart blanks = [] :=
  List.dropWhile_eq_nil_iff.mpr h

theorem beginsSolid_trimStart (cs : List Char) : BeginsSolid (trimStart cs) := by
  intro c first
  have stopped := List.head?_dropWhile_not isBlank cs
  rw [show (cs.dropWhile isBlank).head? = some c from first] at stopped
  simpa using stopped

theorem exists_blanks_append_trimStart (cs : List Char) :
    ∃ blanks, Blanks blanks ∧ cs = blanks ++ trimStart cs :=
  ⟨cs.takeWhile isBlank, fun _ member => List.mem_takeWhile_imp member,
    (List.takeWhile_append_dropWhile (p := isBlank)).symm⟩

theorem beginsSolid_reverse {cs : List Char} : BeginsSolid cs.reverse ↔ EndsSolid cs := by
  simp [BeginsSolid, EndsSolid]

theorem trimEnd_eq_self {cs : List Char} (h : EndsSolid cs) : trimEnd cs = cs := by
  rw [trimEnd, ← trimStart, trimStart_eq_self (beginsSolid_reverse.mpr h), List.reverse_reverse]

theorem trim_eq_self {cs : List Char} (begins : BeginsSolid cs) (ends : EndsSolid cs) :
    trim cs = cs := by
  rw [trim, trimStart_eq_self begins, trimEnd_eq_self ends]

theorem endsSolid_trimEnd (cs : List Char) : EndsSolid (trimEnd cs) := by
  rw [← beginsSolid_reverse, trimEnd, List.reverse_reverse]
  exact beginsSolid_trimStart cs.reverse

theorem trimStart_suffix (cs : List Char) : trimStart cs <:+ cs := List.dropWhile_suffix isBlank

theorem endsSolid_trim (cs : List Char) : EndsSolid (trim cs) := endsSolid_trimEnd (trimStart cs)

theorem splitWord_suffix {cs word rest : List Char} (h : splitWord cs = (word, some rest)) :
    rest <:+ cs := by
  have tail := congrArg Prod.snd h
  have after := List.dropWhile_suffix (fun c => !isBlank c) (l := cs)
  rw [splitWord] at tail
  cases dropped : cs.dropWhile (!isBlank ·) with
  | nil =>
      rw [dropped] at tail
      cases tail
  | cons c later =>
      rw [dropped] at tail after
      cases tail
      exact (List.suffix_cons _ _).trans after

theorem splitWord_append {word : List Char} (h : IsWord word) {c : Char} (blank : isBlank c = true)
    (rest : List Char) : splitWord (word ++ c :: rest) = (word, some rest) := by
  have solid : ∀ d ∈ word, (!isBlank d) = true := fun d member => by rw [h.2 d member]; rfl
  rw [splitWord, List.takeWhile_append_of_pos solid, List.dropWhile_append_of_pos solid,
    List.takeWhile_cons_of_neg (by simp [blank]), List.dropWhile_cons_of_neg (by simp [blank]),
    List.append_nil, List.tail?_cons]

theorem words_blanks_append {blanks : List Char} (h : Blanks blanks) (rest : List Char) :
    words (blanks ++ rest) = words rest := by
  induction blanks with
  | nil => rfl
  | cons c tail ih =>
      rw [List.cons_append, words, if_pos (h c List.mem_cons_self)]
      exact ih fun d member => h d (List.mem_cons_of_mem _ member)

theorem words_blanks {blanks : List Char} (h : Blanks blanks) : words blanks = [] := by
  simpa [words] using words_blanks_append h []

theorem words_word_append {word rest : List Char} (h : IsWord word)
    (ended : ∀ c ∈ rest.head?, isBlank c = true) : words (word ++ rest) = word :: words rest := by
  obtain ⟨nonempty, solid⟩ := h
  induction word with
  | nil => exact absurd rfl nonempty
  | cons c tail ih =>
      have first : isBlank c = false := solid c List.mem_cons_self
      rw [List.cons_append, words, if_neg (by simp [first])]
      cases tail with
      | nil =>
          rw [List.nil_append]
          have blank : (rest.head?.all isBlank) = true := by simpa [Option.all_eq_true] using ended
          cases words rest with
          | nil => rfl
          | cons word later => simp only [blank, if_true]
      | cons d tail =>
          have second : isBlank d = false :=
            solid d (List.mem_cons_of_mem _ List.mem_cons_self)
          rw [ih (by simp) fun e member => solid e (List.mem_cons_of_mem _ member)]
          simp [second]

theorem blanks_of_words_eq_nil {cs : List Char} (h : words cs = []) : Blanks cs := by
  induction cs with
  | nil => exact blanks_nil
  | cons c rest ih =>
      rw [words] at h
      split at h
      next blank =>
        intro d member
        rcases List.mem_cons.mp member with rfl | member
        · exact blank
        · exact ih h d member
      next =>
        split at h
        · cases h
        · split at h <;> cases h

theorem exists_of_words_eq_cons {cs word : List Char} {later : List (List Char)}
    (h : words cs = word :: later) :
    ∃ blanks rest, cs = blanks ++ word ++ rest ∧ Blanks blanks ∧ IsWord word ∧
      (∀ c ∈ rest.head?, isBlank c = true) ∧ words rest = later := by
  induction cs generalizing word later with
  | nil => cases h
  | cons c tail ih =>
      rw [words] at h
      split at h
      next blank =>
        obtain ⟨blanks, rest, rfl, before, isWord, ended, after⟩ := ih h
        refine ⟨c :: blanks, rest, rfl, ?_, isWord, ended, after⟩
        intro d member
        rcases List.mem_cons.mp member with rfl | member
        · exact blank
        · exact before d member
      next solid =>
        have single : IsWord [c] := ⟨by simp, by simpa using solid⟩
        split at h
        next none =>
          cases h
          have blank := blanks_of_words_eq_nil none
          exact ⟨[], tail, rfl, blanks_nil, single,
            fun d first => blank d (List.mem_of_mem_head? first), none⟩
        next second third some =>
          obtain ⟨blanks, rest, split, before, isWord, ended, after⟩ := ih some
          split at h
          next separate =>
            cases h
            exact ⟨[], tail, rfl, blanks_nil, single, by simpa [Option.all_eq_true] using separate,
              some⟩
          -- The character joins the first word of the tail, so no blank stands between them.
          next joined =>
            cases h
            obtain rfl : blanks = [] := by
              cases blanks with
              | nil => rfl
              | cons d blanks =>
                  have blank := before d List.mem_cons_self
                  simp [split, blank] at joined
            refine ⟨[], rest, by simp [split], blanks_nil, ⟨by simp, ?_⟩, ended, after⟩
            intro d member
            rcases List.mem_cons.mp member with rfl | member
            · simpa using solid
            · exact isWord.2 d member

theorem lines_append {line : List Char} (h : '\n' ∉ line) (rest : List Char) :
    lines (line ++ '\n' :: rest) = line :: lines rest := by
  induction line with
  | nil => simp [lines]
  | cons c tail ih =>
      have different : c ≠ '\n' := fun e => h (e ▸ List.mem_cons_self)
      rw [List.cons_append, lines, if_neg different,
        ih fun member => h (List.mem_cons_of_mem _ member)]

theorem newline_notMem_of_mem_lines {cs line : List Char} (member : line ∈ lines cs) :
    '\n' ∉ line := by
  induction cs generalizing line with
  | nil => cases member
  | cons c rest ih =>
      rw [lines] at member
      split at member
      next newline =>
        rcases List.mem_cons.mp member with rfl | member
        · exact List.not_mem_nil
        · exact ih member
      next different =>
        cases cut : lines rest with
        | nil =>
            rw [cut] at member
            obtain rfl := List.mem_singleton.mp member
            simpa using Ne.symm different
        | cons first later =>
            rw [cut] at member ih
            rcases List.mem_cons.mp member with rfl | member
            · simpa [Ne.symm different] using ih List.mem_cons_self
            · exact ih (List.mem_cons_of_mem _ member)

theorem lines_flatMap {texts : List (List Char)} (h : ∀ line ∈ texts, '\n' ∉ line) :
    lines (texts.flatMap (· ++ ['\n'])) = texts := by
  induction texts with
  | nil => rfl
  | cons line rest ih =>
      rw [List.flatMap_cons, List.append_assoc, List.singleton_append,
        lines_append (h line List.mem_cons_self),
        ih fun other member => h other (List.mem_cons_of_mem _ member)]

theorem lines_ne_nil {cs : List Char} (nonempty : cs ≠ []) : lines cs ≠ [] := by
  cases cs with
  | nil => exact absurd rfl nonempty
  | cons c rest =>
      rw [lines]
      split
      · exact List.cons_ne_nil _ _
      · split <;> exact List.cons_ne_nil _ _

/-- No line goes on after this text. -/
def Ended (cs : List Char) : Prop := cs = [] ∨ cs.getLast? = some '\n'

instance (cs : List Char) : Decidable (Ended cs) := inferInstanceAs (Decidable (_ ∨ _))

theorem lines_append_of_ended {cs : List Char} (ended : Ended cs) (after : List Char) :
    lines (cs ++ after) = lines cs ++ lines after := by
  induction cs with
  | nil => rfl
  | cons c rest ih =>
      have last : (c :: rest).getLast? = some '\n' := ended.resolve_left (List.cons_ne_nil _ _)
      rw [List.getLast?_cons] at last
      rw [List.cons_append, lines, lines]
      by_cases newline : c = '\n'
      · have later : Ended rest := by
          cases found : rest.getLast? with
          | none => exact .inl (List.getLast?_eq_none_iff.mp found)
          | some d => rw [found] at last; exact .inr (found.trans last)
        rw [if_pos newline, if_pos newline, ih later, List.cons_append]
      · have nonempty : rest ≠ [] := by
          rintro rfl
          exact newline (Option.some.inj last)
        have later : Ended rest := by
          rw [List.getLast?_eq_some_getLast nonempty] at last
          exact .inr ((List.getLast?_eq_some_getLast nonempty).trans last)
        rw [if_neg newline, if_neg newline, ih later]
        cases cut : lines rest with
        | nil => exact absurd cut (lines_ne_nil nonempty)
        | cons line others => rfl

/-- Cutting at every line end makes one more piece, an empty one, when the last line is ended. -/
theorem splitOn_eq_lines_or (cs : List Char) :
    cs.splitOn '\n' = lines cs ∨ cs.splitOn '\n' = lines cs ++ [[]] := by
  induction cs with
  | nil => exact .inr (List.splitOn_nil _)
  | cons c rest ih =>
      have step : (c :: rest).splitOn '\n' =
          if c = '\n' then [] :: rest.splitOn '\n'
          else (rest.splitOn '\n').modifyHead (c :: ·) := by
        simp [List.splitOn, List.splitOnP_cons_eq_if_modifyHead]
      rw [step, lines]
      by_cases newline : c = '\n'
      · rw [if_pos newline, if_pos newline]
        exact ih.imp (congrArg _) (congrArg _)
      · rw [if_neg newline, if_neg newline]
        cases cut : lines rest with
        | nil =>
            rw [cut] at ih
            rcases ih with none | one
            · exact absurd none (List.splitOn_ne_nil _ _)
            · exact .inl (congrArg (List.modifyHead (c :: ·)) one)
        | cons line later =>
            rw [cut] at ih
            exact ih.imp (congrArg (List.modifyHead (c :: ·)))
              (congrArg (List.modifyHead (c :: ·)))

theorem newline_notMem_of_mem_splitOn {cs piece : List Char} (h : piece ∈ cs.splitOn '\n') :
    '\n' ∉ piece := by
  rcases splitOn_eq_lines_or cs with same | more
  · rw [same] at h
    exact newline_notMem_of_mem_lines h
  · rw [more, List.mem_append, List.mem_singleton] at h
    rcases h with inside | rfl
    · exact newline_notMem_of_mem_lines inside
    · exact List.not_mem_nil

end ProxyMonitor.Text
