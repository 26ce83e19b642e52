import ProxyMonitor.Proofs.Exposition.Stability

/-! What each line of an exposition says by itself, given the kinds that all of its lines declare;
a builder hears the same. -/

namespace ProxyMonitor

def MetricKind.mark (kind : MetricKind) : String := if kind = .summary then "quantile" else "le"

def MetricKind.foreignMark (kind : MetricKind) : String :=
  if kind = .summary then "le" else "quantile"

namespace Exposition

/-- A sample line and where it belongs: to a part of the group with these labels, or to none. -/
structure Entry where
  family : String
  labels : Labels
  part : Option GroupPart
  value : Binary64

inductive Statement where
  | describe (family help : String)
  | declare (family : String) (kind : MetricKind)
  | sample (entry : Entry)

namespace Entry

def change (entry : Entry) : Change :=
  match entry.part with
  | none => .single ⟨entry.labels, .single entry.value⟩
  | some part => .record entry.labels part entry.value

end Entry

namespace Statement

def family : Statement → String
  | describe family _ => family
  | declare family _ => family
  | sample entry => entry.family

def change : Statement → Change
  | describe _ help => .describe help
  | declare _ kind => .declare kind
  | sample entry => entry.change

def help? (name : String) : Statement → Option String
  | describe family help => if family = name then some help else none
  | _ => none

def kind? (name : String) : Statement → Option MetricKind
  | declare family kind => if family = name then some kind else none
  | _ => none

def sample? : Statement → Option Entry
  | sample entry => some entry
  | _ => none

end Statement

def remark? (text : List Char) : Option Statement :=
  match Text.splitWord (Text.trimStart text) with
  | (_, none) => none
  | (keyword, some rest) =>
    let (name, tail) := Text.splitWord (Text.trimStart rest)
    let tail := Text.trimStart (tail.getD [])
    if !isMetricName name then none
    else if keyword = ['H', 'E', 'L', 'P'] then
      some (.describe (String.ofList name) (String.ofList (Builder.unescapeHelp tail)))
    else if keyword = ['T', 'Y', 'P', 'E'] then
      some (.declare (String.ofList name) (.ofToken (String.ofList (Text.trim tail))))
    else none

def comment? (line : List Char) : Option Statement :=
  match Text.trim line with
  | '#' :: text => remark? text
  | _ => none

def declaredKind (lines : List (List Char)) (name : String) : MetricKind :=
  (lines.filterMap fun line => (comment? line).bind (Statement.kind? name)).getLast?.getD .unknown

namespace SampleLine

variable (kinds : String → MetricKind) (line : SampleLine)

def placed? : Option Entry :=
  (line.target? kinds).map fun
    | some target =>
      ⟨target.family, line.labels.erase (kinds target.family).mark, some target.part, line.value⟩
    | none => ⟨line.name, line.labels, none, line.value⟩

end SampleLine

/-- A line is a part of the family that its name points to, or, if it points to none, a sample of
its own name. -/
inductive Attributed (kinds : String → MetricKind) (line : SampleLine) : Entry → Prop where
  | part {family : String} {part : GroupPart} (name : line.name = part.lineName family)
      (fits : part.Fits (kinds family)) (clear : part.Clear kinds family)
      (marked : ∀ mark ∈ part.mark?, line.marked? mark.1 = some mark.2) :
      Attributed kinds line
        ⟨family, line.labels.erase (kinds family).mark, some part, line.value⟩
  | single (loose : Loose kinds line.name) :
      Attributed kinds line ⟨line.name, line.labels, none, line.value⟩

def sampleLine? (line : List Char) : Option SampleLine := (readSampleLine (Text.trim line)).toOption

def statement? (kinds : String → MetricKind) (line : List Char) : Option Statement :=
  (comment? line).or (((sampleLine? line).bind (SampleLine.placed? kinds)).map .sample)

def said (lines : List (List Char)) : List Statement :=
  lines.filterMap (statement? (declaredKind lines))

def Malformed (kinds : String → MetricKind) (line : List Char) : Prop :=
  Text.trim line ≠ [] ∧ (Text.trim line).head? ≠ some '#' ∧ statement? kinds line = none

instance (kinds : String → MetricKind) (line : List Char) : Decidable (Malformed kinds line) :=
  inferInstanceAs (Decidable (_ ∧ _ ∧ _))

/-- No line of a group has the mark of the other kind of groups. -/
def Unmixed (lines : List (List Char)) : Prop :=
  ∀ line ∈ lines, ∀ sample ∈ sampleLine? line, ∀ entry ∈ sample.placed? (declaredKind lines),
    entry.part.isSome → sample.labels.contains (declaredKind lines entry.family).foreignMark = false

instance (lines : List (List Char)) : Decidable (Unmixed lines) :=
  inferInstanceAs (Decidable (∀ line ∈ lines, ∀ sample ∈ sampleLine? line, _))

namespace SampleLine

variable {kinds changed : String → MetricKind} {line : SampleLine} {entry : Entry}

theorem attributed_of_placed (h : line.placed? kinds = some entry) : Attributed kinds line entry := by
  obtain ⟨target, found, rfl⟩ := Option.map_eq_some_iff.mp h
  cases target with
  | none => exact .single (loose_of_target found)
  | some target =>
      obtain ⟨name, fits, clear, marked⟩ := part_of_target found
      exact .part name fits clear marked

theorem attributed_iff : Attributed kinds line entry ↔ line.placed? kinds = some entry := by
  refine ⟨fun given => ?_, attributed_of_placed⟩
  cases given with
  | part name fits clear marked => rw [placed?, target_of_part name fits clear marked]; rfl
  | single loose => rw [placed?, target_of_loose loose]; rfl

theorem part_of_placed (h : line.placed? kinds = some entry) :
    ∀ part ∈ entry.part, line.name = part.lineName entry.family := by
  intro part here
  cases attributed_of_placed h with
  | part name => exact Option.some.inj here ▸ name
  | single => cases here

theorem bucketed_congr (same : ∀ suffix ∈ lineSuffixes, ∀ base, line.name = base ++ suffix →
    changed base = kinds base) : bucketed? changed line.name = bucketed? kinds line.name := by
  refine filter_congr_of_mem fun base found => ?_
  rw [same "_bucket" (by decide) base (stripSuffix_eq_some_iff.mp found)]

theorem total_congr (same : ∀ suffix ∈ lineSuffixes, ∀ base, line.name = base ++ suffix →
    changed base = kinds base) : total? changed line.name = total? kinds line.name := by
  refine filter_congr_of_mem fun target found => ?_
  obtain ⟨suffix, listed, spelled⟩ := exists_suffix target.part target.family
  rw [same suffix listed target.family ((suffix_target_iff.mp found).2.trans spelled)]

theorem target_congr (same : ∀ suffix ∈ lineSuffixes, ∀ base, line.name = base ++ suffix →
    changed base = kinds base) : line.target? changed = line.target? kinds := by
  rw [target?, target?, same "" (by decide) line.name String.append_empty.symm,
    bucketed_congr same, total_congr same]

theorem entry_congr (same : ∀ suffix ∈ lineSuffixes, ∀ base, line.name = base ++ suffix →
    changed base = kinds base) : line.placed? changed = line.placed? kinds := by
  rw [placed?, placed?, target_congr same]
  refine Option.map_congr fun target found => ?_
  cases target with
  | none => rfl
  | some target =>
      obtain ⟨suffix, listed, spelled⟩ := exists_suffix target.part target.family
      have kind := same suffix listed target.family ((part_of_target found).1.trans spelled)
      simp only [kind]

end SampleLine

structure Taken where
  line : SampleLine
  target : Option GroupTarget

def unmarked (labels : Labels) : Labels := (labels.erase "le").erase "quantile"

/-- What a builder makes of a line. -/
def Taken.entry (taken : Taken) : Entry :=
  match taken.target with
  | some target => ⟨target.family, unmarked taken.line.labels, some target.part, taken.line.value⟩
  | none => ⟨taken.line.name, taken.line.labels, none, taken.line.value⟩

def SampleLine.taken? (kinds : String → MetricKind) (line : SampleLine) : Option Taken :=
  (line.target? kinds).map (⟨line, ·⟩)

def heard? (kinds : String → MetricKind) (line : List Char) : Option Statement :=
  (comment? line).or
    ((((sampleLine? line).bind (SampleLine.taken? kinds)).map Taken.entry).map .sample)

theorem erase_marks {labels : Labels} {kind : MetricKind}
    (unmixed : labels.contains kind.foreignMark = false) :
    unmarked labels = labels.erase kind.mark := by
  rw [MetricKind.foreignMark] at unmixed
  rw [unmarked, MetricKind.mark]
  split at unmixed
  next summary => rw [if_pos summary, Labels.erase_of_absent unmixed]
  next other =>
    rw [if_neg other]
    refine Labels.erase_of_absent ?_
    rw [Bool.eq_false_iff, Ne, Labels.contains_erase, unmixed]
    exact fun held => Bool.false_ne_true held.1

theorem heard_eq_none_iff {kinds : String → MetricKind} {line : List Char} :
    heard? kinds line = none ↔ statement? kinds line = none := by
  rw [heard?, statement?, Option.or_eq_none_iff, Option.or_eq_none_iff, Option.map_eq_none_iff,
    Option.map_eq_none_iff, Option.map_eq_none_iff]
  refine and_congr_right fun _ => ?_
  cases sampleLine? line with
  | none => simp
  | some sample =>
      rw [Option.bind_some, Option.bind_some, SampleLine.taken?, SampleLine.placed?,
        Option.map_eq_none_iff, Option.map_eq_none_iff]

theorem heard_eq_statement {kinds : String → MetricKind} {line : List Char}
    (unmixed : ∀ sample ∈ sampleLine? line, ∀ entry ∈ sample.placed? kinds, entry.part.isSome →
      sample.labels.contains (kinds entry.family).foreignMark = false) :
    heard? kinds line = statement? kinds line := by
  rw [heard?, statement?]
  cases read : sampleLine? line with
  | none => rfl
  | some sample =>
      have unmixed := unmixed sample read
      rw [Option.bind_some, Option.bind_some, SampleLine.taken?]
      rw [SampleLine.placed?] at unmixed ⊢
      cases found : sample.target? kinds with
      | none => rfl
      | some target =>
          cases target with
          | none => rfl
          | some target =>
              rw [found] at unmixed
              simp only [Option.map_some, Taken.entry, erase_marks (unmixed _ rfl rfl)]

namespace Builder

variable (b : Builder)

theorem toOption_sample (line : SampleLine) :
    (b.sample line).toOption =
      (line.taken? b.kindOf).map fun taken =>
        b.change taken.entry.family taken.entry.change := by
  rw [SampleLine.taken?, ← toOption_groupTarget, sample]
  cases b.groupTarget line with
  | error cause => rfl
  | ok target => cases target <;> rfl

theorem comment_eq (text : List Char) :
    b.comment text =
      ((remark? text).map fun statement => b.change statement.family statement.change).getD b := by
  rw [comment, remark?]
  cases Text.splitWord (Text.trimStart text) with
  | mk keyword rest? =>
      cases rest? with
      | none => rfl
      | some rest =>
          by_cases isName : isMetricName (Text.splitWord (Text.trimStart rest)).1 = true
          · by_cases help : keyword = ['H', 'E', 'L', 'P']
            · simp only [isName, help, Bool.not_true, Bool.false_eq_true, if_true, if_false]
              rfl
            · by_cases type : keyword = ['T', 'Y', 'P', 'E']
              · simp only [isName, type, Bool.not_true, Bool.false_eq_true, if_true, if_false]
                rfl
              · simp [isName, help, type]
          · simp [isName]

end Builder

/-- What becomes of a line: it is taken in for what it says, passed over, or refused. -/
inductive Heard (b : Builder) (line : List Char) : Except Cause Builder → Prop where
  | said {statement : Statement} (tells : heard? b.kindOf line = some statement) :
      Heard b line (.ok (b.change statement.family statement.change))
  | silent (nothing : heard? b.kindOf line = none) (formed : ¬ Malformed b.kindOf line) :
      Heard b line (.ok b)
  | refused {cause : Cause} (malformed : Malformed b.kindOf line) : Heard b line (.error cause)

theorem heard_readLine (b : Builder) (line : List Char) : Heard b line (readLine b line) := by
  rw [readLine]
  split
  next blank =>
    refine .silent ?_ fun malformed => malformed.1 blank
    simp [heard?, comment?, sampleLine?, blank, readSampleLine, isMetricName, Except.toOption]
  next text comment =>
    -- A comment is heard for its remark alone, since it is no sample line.
    have formed : ¬ Malformed b.kindOf line := fun malformed => malformed.2.1 (by rw [comment]; rfl)
    have noSample : sampleLine? line = none := by
      rw [sampleLine?, comment, readSampleLine, List.takeWhile_cons_of_neg (by decide)]
      rfl
    have only : heard? b.kindOf line = remark? text := by
      rw [heard?, noSample, comment?, comment]
      exact Option.or_none
    rw [Builder.comment_eq]
    cases tells : remark? text with
    | none => exact .silent (only.trans tells) formed
    | some statement => exact .said (only.trans tells)
  next notBlank noComment =>
    have comment : comment? line = none := by
      rw [comment?]
      split
      next text hash => exact absurd hash (noComment text)
      next => rfl
    have only : heard? b.kindOf line =
        (((sampleLine? line).bind (SampleLine.taken? b.kindOf)).map Taken.entry).map .sample := by
      rw [heard?, comment, Option.none_or]
    have malformed : heard? b.kindOf line = none → Malformed b.kindOf line := by
      refine fun nothing => ⟨notBlank, fun hash => ?_, heard_eq_none_iff.mp nothing⟩
      obtain ⟨text, hash⟩ := List.head?_eq_some_iff.mp hash
      exact noComment text hash
    cases read : readSampleLine (Text.trim line) with
    | error cause =>
        refine .refused (malformed ?_)
        rw [only, sampleLine?, read]
        rfl
    | ok sample =>
        have here : sampleLine? line = some sample := by rw [sampleLine?, read]; rfl
        -- The builder takes a sample exactly where its kinds give the line a target.
        have changed := b.toOption_sample sample
        rw [here, Option.bind_some] at only
        change Heard b line (b.sample sample)
        cases taken : sample.taken? b.kindOf with
        | none =>
            rw [taken] at only changed
            cases outcome : b.sample sample with
            | error cause => exact .refused (malformed only)
            | ok later => rw [outcome] at changed; cases changed
        | some taken' =>
            rw [taken] at only changed
            cases outcome : b.sample sample with
            | error cause => rw [outcome] at changed; cases changed
            | ok later =>
                rw [outcome] at changed
                obtain rfl := Option.some.inj changed
                exact .said only

theorem readSampleLine_of_sampleLine {line : List Char} {sample : SampleLine}
    (read : sampleLine? line = some sample) : readSampleLine (Text.trim line) = .ok sample := by
  rw [sampleLine?] at read
  cases outcome : readSampleLine (Text.trim line) with
  | error cause =>
      rw [outcome] at read
      cases read
  | ok other =>
      rw [outcome] at read
      rw [Option.some.inj read]

theorem declaredName_of_comment {line : List Char} {name : String} {kind : MetricKind}
    (h : comment? line = some (.declare name kind)) : declaredName? line = some name := by
  rw [comment?] at h
  split at h
  next text hash =>
    rw [declaredName?, hash]
    simp only
    rw [remark?] at h
    split at h
    next => cases h
    next keyword rest words =>
      rw [words]
      simp only at h ⊢
      by_cases isName : isMetricName (Text.splitWord (Text.trimStart rest)).1 = true
      · by_cases help : keyword = ['H', 'E', 'L', 'P']
        · simp [isName, help] at h
        · by_cases type : keyword = ['T', 'Y', 'P', 'E']
          · subst type
            simp [isName] at h
            simp [isName, h.1]
          · simp [isName, help, type] at h
      · simp [isName] at h
  next => cases h

theorem comment_spec {line : List Char} {statement : Statement}
    (tells : comment? line = some statement) :
    sampleLine? line = none ∧ statement.sample? = none := by
  rw [comment?] at tells
  split at tells
  next text hash =>
    constructor
    · rw [sampleLine?, hash, readSampleLine, List.takeWhile_cons_of_neg (by decide)]
      rfl
    · rw [remark?] at tells
      split at tells
      next => cases tells
      next =>
        simp only at tells
        repeat' split at tells
        all_goals cases tells
        all_goals rfl
  next => cases tells

theorem bind_sample_or {line : List Char} {entry : Option Entry}
    (noSample : sampleLine? line = none → entry = none) :
    ((comment? line).or (entry.map .sample)).bind Statement.sample? = entry := by
  cases tells : comment? line with
  | none => cases entry <;> rfl
  | some statement =>
      obtain ⟨silent, remark⟩ := comment_spec tells
      rw [Option.some_or, Option.bind_some, remark, noSample silent]

theorem declaredKind_append_of_silent {past rest : List (List Char)} {name : String}
    (silent : ∀ line ∈ rest, declaredName? line ≠ some name) :
    declaredKind (past ++ rest) name = declaredKind past name := by
  have unsaid : (rest.filterMap fun line => (comment? line).bind (Statement.kind? name)) = [] := by
    rw [List.filterMap_eq_nil_iff]
    intro line member
    cases tells : comment? line with
    | none => rfl
    | some statement =>
        cases statement with
        | declare family kind =>
            have apart : family ≠ name := by
              rintro rfl
              exact silent line member (declaredName_of_comment tells)
            exact if_neg apart
        | describe | sample => rfl
  rw [declaredKind, List.filterMap_append, unsaid, List.append_nil, declaredKind]

section

variable {past rest : List (List Char)} {line : List Char} {sample : SampleLine}

theorem kind_settled (first : DeclaredFirst (past ++ line :: rest))
    (read : sampleLine? line = some sample) :
    ∀ suffix ∈ lineSuffixes, ∀ base, sample.name = base ++ suffix →
      declaredKind (past ++ line :: rest) base = declaredKind past base := by
  intro suffix listed base name
  obtain ⟨later, -⟩ := List.pairwise_cons.mp (List.pairwise_append.mp first).2.1
  have parsed := readSampleLine_of_sampleLine read
  have sampled : sampledName? line = some (base ++ suffix) := by
    rw [sampledName?, parsed, ← name]
  refine declaredKind_append_of_silent fun other member declared => ?_
  rcases List.mem_cons.mp member with rfl | member
  · rw [declaredName_of_readSampleLine parsed] at declared
    cases declared
  · exact (later other member base declared).2 suffix listed sampled

theorem statement_congr (first : DeclaredFirst (past ++ line :: rest)) :
    statement? (declaredKind (past ++ line :: rest)) line = statement? (declaredKind past) line := by
  rw [statement?, statement?]
  cases read : sampleLine? line with
  | none => rfl
  | some sample =>
      rw [Option.bind_some, Option.bind_some, SampleLine.entry_congr (kind_settled first read)]

theorem Unmixed.so_far (h : Unmixed (past ++ line :: rest))
    (first : DeclaredFirst (past ++ line :: rest)) :
    ∀ sample ∈ sampleLine? line, ∀ entry ∈ sample.placed? (declaredKind past), entry.part.isSome →
      sample.labels.contains (declaredKind past entry.family).foreignMark = false := by
  intro sample read entry told grouped
  have settled := kind_settled first read
  have told' : sample.placed? (declaredKind (past ++ line :: rest)) = some entry :=
    (SampleLine.entry_congr settled).trans told
  obtain ⟨part, here⟩ := Option.isSome_iff_exists.mp grouped
  obtain ⟨suffix, listed, spelled⟩ := exists_suffix part entry.family
  have name := (SampleLine.part_of_placed told' part here).trans spelled
  have pure := h line (List.mem_append_right _ List.mem_cons_self) sample read entry told' grouped
  rwa [settled suffix listed entry.family name] at pure

end

theorem bind_kind_or_sample (comment : Option Statement) (entry : Option Entry) (name : String) :
    (comment.or (entry.map .sample)).bind (Statement.kind? name) =
      comment.bind (Statement.kind? name) := by
  cases comment with
  | some statement => rfl
  | none => cases entry <;> rfl

theorem declaredKind_eq (kinds : String → MetricKind) (lines : List (List Char)) (name : String) :
    declaredKind lines name =
      ((lines.filterMap (statement? kinds)).filterMap
        (Statement.kind? name)).getLast?.getD .unknown := by
  rw [declaredKind, List.filterMap_filterMap]
  simp only [statement?, bind_kind_or_sample]

theorem declaredKind_concat (lines : List (List Char)) (line : List Char) (name : String) :
    declaredKind (lines ++ [line]) name =
      ((comment? line).bind (Statement.kind? name)).getD (declaredKind lines name) := by
  rw [declaredKind, List.filterMap_append, List.getLast?_append, List.filterMap_cons]
  cases (comment? line).bind (Statement.kind? name) <;> rfl

end Exposition

end ProxyMonitor
