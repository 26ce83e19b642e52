import ProxyMonitor.Exposition.Draft
import ProxyMonitor.Exposition.Render
import ProxyMonitor.Proofs.Exposition.Grammar

namespace ProxyMonitor.Exposition

open Builder (unescapeHelp)
open Text (BeginsSolid EndsSolid isBlank)

theorem escapeHelp_eq (text : List Char) :
    escapeHelp text = text.flatMap fun c =>
      if c = '\\' then ['\\', '\\'] else if c = '\n' then ['\\', 'n'] else [c] := by
  simp only [escapeHelp, replaceChar, List.flatMap_assoc]
  refine congrArg text.flatMap (funext fun c => ?_)
  by_cases backslash : c = '\\'
  · simp [backslash]
  · simp [backslash]

/-- No later replacement meets what an earlier one has put in. -/
theorem escapeLabelValue_eq (text : List Char) :
    escapeLabelValue text = text.flatMap fun c =>
      if c = '\\' then ['\\', '\\'] else if c = '"' then ['\\', '"']
      else if c = '\n' then ['\\', 'n'] else [c] := by
  simp only [escapeLabelValue, replaceChar, List.flatMap_assoc]
  refine congrArg text.flatMap (funext fun c => ?_)
  by_cases backslash : c = '\\'
  · simp [backslash]
  · by_cases quote : c = '"'
    · simp [quote]
    · simp [backslash, quote]

theorem quotedText_escapeLabelValue (value : List Char) :
    QuotedText (escapeLabelValue value) value := by
  induction value with
  | nil => exact .nil
  | cons c rest ih =>
      rw [escapeLabelValue_eq, List.flatMap_cons, ← escapeLabelValue_eq]
      split
      next backslash =>
        subst backslash
        exact @QuotedText.escape '\\' _ _ ih
      next noEscape =>
        split
        next quote =>
          subst quote
          exact @QuotedText.escape '"' _ _ ih
        next noQuote =>
          split
          next newline =>
            subst newline
            exact @QuotedText.escape 'n' _ _ ih
          next => exact .plain noQuote noEscape ih

theorem newline_notMem_escapeLabelValue (value : List Char) : '\n' ∉ escapeLabelValue value := by
  rw [escapeLabelValue_eq]
  intro inside
  obtain ⟨c, -, member⟩ := List.mem_flatMap.mp inside
  split at member
  · simp at member
  · split at member
    · simp at member
    · split at member
      · simp at member
      next other => exact other (List.mem_singleton.mp member).symm

/-- A text that stays whole when its line is trimmed: its newlines are escaped there. -/
structure HelpText (text : List Char) : Prop where
  begins : ∀ c ∈ text.head?, c = '\n' ∨ isBlank c = false
  ends : ∀ c ∈ text.getLast?, c = '\n' ∨ isBlank c = false

instance (text : List Char) : Decidable (HelpText text) :=
  decidable_of_iff (text.head?.all (fun c => c = '\n' ∨ isBlank c = false) = true ∧
    text.getLast?.all (fun c => c = '\n' ∨ isBlank c = false) = true)
    ⟨fun h => ⟨by simpa [Option.all_eq_true] using h.1, by simpa [Option.all_eq_true] using h.2⟩,
      fun h => ⟨by simpa [Option.all_eq_true] using h.begins,
        by simpa [Option.all_eq_true] using h.ends⟩⟩

theorem unescapeHelp_cons {c : Char} (noEscape : c ≠ '\\') (rest : List Char) :
    unescapeHelp (c :: rest) = c :: unescapeHelp rest := by
  rw [unescapeHelp]
  · intro _ same
    subst same
    exact absurd rfl noEscape
  · intro _ same
    subst same
    exact absurd rfl noEscape
  · intro _ _ same
    subst same
    exact absurd rfl noEscape

theorem unescapeHelp_escapeHelp (text : List Char) : unescapeHelp (escapeHelp text) = text := by
  induction text with
  | nil => rfl
  | cons c rest ih =>
      rw [escapeHelp_eq, List.flatMap_cons, ← escapeHelp_eq]
      split
      next backslash =>
        subst backslash
        simp only [List.cons_append, List.nil_append, unescapeHelp, ih]
      next noEscape =>
        split
        next newline =>
          subst newline
          simp only [List.cons_append, List.nil_append, unescapeHelp, ih]
        next =>
          rw [List.singleton_append, unescapeHelp_cons noEscape, ih]

theorem newline_notMem_escapeHelp (text : List Char) : '\n' ∉ escapeHelp text := by
  rw [escapeHelp_eq]
  intro inside
  obtain ⟨c, -, member⟩ := List.mem_flatMap.mp inside
  split at member
  · simp at member
  · split at member
    · simp at member
    next other => exact other (List.mem_singleton.mp member).symm

theorem HelpText.beginsSolid_escapeHelp {text : List Char} (h : HelpText text) :
    BeginsSolid (escapeHelp text) := by
  cases text with
  | nil => simp [BeginsSolid, escapeHelp_eq]
  | cons c rest =>
      have first := h.begins c rfl
      rw [escapeHelp_eq, List.flatMap_cons]
      intro d leads
      split at leads
      · obtain rfl : '\\' = d := by simpa using leads
        decide
      · split at leads
        · obtain rfl : '\\' = d := by simpa using leads
          decide
        next other =>
          obtain rfl : c = d := by simpa using leads
          exact first.resolve_left other

theorem HelpText.endsSolid_escapeHelp {text : List Char} (h : HelpText text) :
    EndsSolid (escapeHelp text) := by
  rcases List.eq_nil_or_concat text with rfl | ⟨before, c, rfl⟩
  · simp [EndsSolid, escapeHelp_eq]
  · have last := h.ends c (by simp)
    rw [escapeHelp_eq, List.concat_eq_append, List.flatMap_append, List.flatMap_singleton]
    intro d ending
    split at ending
    · obtain rfl : '\\' = d := by simpa using ending
      decide
    · split at ending
      · obtain rfl : 'n' = d := by simpa using ending
        decide
      next other =>
        obtain rfl : c = d := by simpa using ending
        exact last.resolve_left other

theorem eq_nil_of_unescapeHelp {text : List Char} (h : unescapeHelp text = []) : text = [] := by
  revert h
  fun_cases unescapeHelp text <;> simp

theorem begins_unescapeHelp {text : List Char} (begins : BeginsSolid text) :
    ∀ c ∈ (unescapeHelp text).head?, c = '\n' ∨ isBlank c = false := by
  fun_cases unescapeHelp text with
  | case1 => simp
  | case2 rest => simp
  | case3 rest =>
      intro c first
      cases first
      exact .inr (by decide)
  | case4 c rest =>
      intro c first
      cases first
      exact .inr (by decide)
  | case5 c rest =>
      intro c first
      cases first
      exact .inr (begins c rfl)

theorem ends_cons {P : Char → Prop} {c : Char} {rest : List Char}
    (later : ∀ d ∈ rest.getLast?, P d) (alone : rest = [] → P c) :
    ∀ d ∈ (c :: rest).getLast?, P d := by
  intro d last
  rw [List.getLast?_cons, Option.mem_some_iff] at last
  cases found : rest.getLast? with
  | none =>
      rw [found] at last
      exact last ▸ alone (List.getLast?_eq_none_iff.mp found)
  | some e =>
      rw [found] at last
      exact last ▸ later e found

theorem endsSolid_tail {c : Char} {rest : List Char} (h : EndsSolid (c :: rest)) :
    EndsSolid rest := by
  intro d last
  refine h d ?_
  rw [List.getLast?_cons, Option.mem_def.mp last]
  rfl

theorem ends_unescapeHelp {text : List Char} (ends : EndsSolid text) :
    ∀ c ∈ (unescapeHelp text).getLast?, c = '\n' ∨ isBlank c = false := by
  fun_induction unescapeHelp text with
  | case1 => simp
  | case2 rest ih => exact ends_cons (ih (endsSolid_tail (endsSolid_tail ends))) fun _ => .inl rfl
  | case3 rest ih =>
      exact ends_cons (ih (endsSolid_tail (endsSolid_tail ends))) fun _ => .inr (by decide)
  | case4 c rest _ _ ih =>
      have later := ends_cons (ih (endsSolid_tail (endsSolid_tail ends))) fun nil => .inr (by
        obtain rfl := eq_nil_of_unescapeHelp nil
        exact ends c rfl)
      exact ends_cons later fun nil => nomatch nil
  | case5 c rest _ _ _ ih =>
      refine ends_cons (ih (endsSolid_tail ends)) fun nil => .inr ?_
      obtain rfl := eq_nil_of_unescapeHelp nil
      exact ends c rfl

theorem helpText_unescapeHelp {text : List Char} (begins : BeginsSolid text)
    (ends : EndsSolid text) : HelpText (unescapeHelp text) :=
  ⟨begins_unescapeHelp begins, ends_unescapeHelp ends⟩

end ProxyMonitor.Exposition
