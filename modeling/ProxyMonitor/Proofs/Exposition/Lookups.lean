import ProxyMonitor.Proofs.Exposition.Statements

/-! Lookups of the reader. The builder reaches a draft through its place alone, so a place out of
range, or one that holds a single sample where a group is wanted, would bring the reading down. Here
the steps of the reader are written with such failures, and no failure occurs. -/

namespace ProxyMonitor.Exposition

inductive Call where
  | comment (text : List Char)
  | sample (line : SampleLine)

def Builder.orKept (b : Builder) : Except Cause Builder → Builder
  | .ok later => later
  | .error _ => b

def Builder.call (b : Builder) : Call → Builder
  | .comment text => b.comment text
  | .sample line => b.orKept (b.sample line)

def Builder.run (calls : List Call) : Builder := calls.foldl Builder.call .empty

/-- Names and labels lead to the places of their own drafts, and to all of them. -/
structure Builder.Placed (b : Builder) : Prop where
  distinct : (b.families.toList.map FamilyDraft.name).Nodup
  family : ∀ (name : String) (place : Nat), b.index[name]? = some place ↔
    ∃ draft, b.families[place]? = some draft ∧ draft.name = name
  group : ∀ draft ∈ b.families.toList, ∀ (pairs : List (String × String)) (place : Nat),
    draft.groups[pairs]? = some place ↔
      ∃ group, draft.samples[place]? = some (.group group) ∧ group.labels.pairs = pairs

namespace Checked

def groupAt? (draft : FamilyDraft) (place : Nat) : Option GroupDraft :=
  match draft.samples[place]? with
  | some (.group group) => some group
  | _ => none

def modifyGroup? (draft : FamilyDraft) (labels : Labels) (f : GroupDraft → GroupDraft) :
    Option FamilyDraft :=
  let (draft, place) := draft.ensureGroup labels
  (groupAt? draft place).map fun group =>
    { draft with samples := draft.samples.setIfInBounds place (.group (f group)) }

def modifyFamily? (b : Builder) (name : String) (f? : FamilyDraft → Option FamilyDraft) :
    Option Builder :=
  let (b, place) := b.ensureFamily name
  (b.families[place]?.bind f?).map fun draft =>
    { b with families := b.families.setIfInBounds place draft }

def kind? (b : Builder) (name : String) : Option (Option MetricKind) :=
  match b.index[name]? with
  | none => some none
  | some place => b.families[place]?.map fun draft => some draft.kind

def comment? (b : Builder) (text : List Char) : Option Builder :=
  match Text.splitWord (Text.trimStart text) with
  | (_, none) => some b
  | (keyword, some rest) =>
    let (name, tail) := Text.splitWord (Text.trimStart rest)
    let tail := Text.trimStart (tail.getD [])
    if !isMetricName name then some b
    else if keyword = ['H', 'E', 'L', 'P'] then
      modifyFamily? b (String.ofList name) fun draft =>
        some { draft with help := String.ofList (Builder.unescapeHelp tail) }
    else if keyword = ['T', 'Y', 'P', 'E'] then
      modifyFamily? b (String.ofList name) fun draft =>
        some { draft with kind := .ofToken (String.ofList (Text.trim tail)) }
    else some b

def bucketBase? (b : Builder) (name : String) : Option (Option String) :=
  match Builder.stripSuffix? name "_bucket" with
  | none => some none
  | some base => (kind? b base).map fun kind => if kind = some .histogram then some base else none

def totalTarget? (b : Builder) (name : String) : Option (Option GroupTarget) :=
  let target : Option GroupTarget := match Builder.stripSuffix? name "_sum" with
    | some base => some ⟨base, .sum⟩
    | none => (Builder.stripSuffix? name "_count").map (⟨·, .count⟩)
  match target with
  | none => some none
  | some target => (kind? b target.family).map fun kind =>
      if kind = some .histogram ∨ kind = some .summary then some target else none

def groupTarget? (b : Builder) (line : SampleLine) : Option (Except Cause (Option GroupTarget)) :=
  (kind? b line.name).bind fun kind =>
    if kind = some .summary then some do
      let quantile ← Builder.readLabelValue line "quantile"
      return some ⟨line.name, .quantile quantile⟩
    else (bucketBase? b line.name).bind fun
      | some base => some do
        let upperBound ← Builder.readLabelValue line "le"
        return some ⟨base, .bucket upperBound⟩
      | none => (totalTarget? b line.name).map .ok

def sample? (b : Builder) (line : SampleLine) : Option (Except Cause Builder) :=
  (groupTarget? b line).bind fun
    | .error cause => some (.error cause)
    | .ok (some target) =>
      let labels := (line.labels.erase "le").erase "quantile"
      (modifyFamily? b target.family
        (modifyGroup? · labels (·.record line.value target.part))).map .ok
    | .ok none =>
      (modifyFamily? b line.name
        (some <| ·.addSample ⟨line.labels, .single line.value⟩)).map .ok

def readLine? (b : Builder) (line : List Char) : Option (Except Cause Builder) :=
  match Text.trim line with
  | [] => some (.ok b)
  | '#' :: text => (comment? b text).map .ok
  | line =>
    match readSampleLine line with
    | .ok sample => sample? b sample
    | .error cause => some (.error cause)

def readLines? (next : Nat) (b : Builder) : List (List Char) → Option Reading
  | [] => some ⟨.ok b.finish, []⟩
  | line :: rest =>
    (readLine? b line).bind fun
      | .ok b => readLines? (next + 1) b rest
      | .error cause =>
        let problem := ⟨next, cause⟩
        if cause.isFatal then some ⟨.error problem, []⟩
        else (readLines? (next + 1) b rest).map fun reading =>
          { reading with skipped := problem :: reading.skipped }

def call? (b : Builder) : Call → Option Builder
  | .comment text => comment? b text
  | .sample line => (sample? b line).map b.orKept

def run? (calls : List Call) : Option Builder := calls.foldlM call? .empty

def read? (text : String) : Option Reading := readLines? 1 .empty (Text.lines text.toList)

end Checked

theorem FamilyDraft.Indexed.getElem?_groups {draft : FamilyDraft} (h : draft.Indexed)
    (pairs : List (String × String)) (place : Nat) :
    draft.groups[pairs]? = some place ↔
      ∃ group, draft.samples[place]? = some (.group group) ∧ group.labels.pairs = pairs := by
  rw [h.getElem?_eq_some_iff, List.getElem?_map, Array.getElem?_toList]
  cases draft.samples[place]? with
  | none => simp
  | some sample => cases sample <;> simp [SampleDraft.key?]

theorem Builder.Indexed.getElem?_index {b : Builder} (h : b.Indexed) (name : String)
    (place : Nat) :
    b.index[name]? = some place ↔
      ∃ draft, b.families[place]? = some draft ∧ draft.name = name := by
  rw [h.names.getElem?_eq_some_iff, List.getElem?_map, Array.getElem?_toList]
  simp

theorem Builder.Indexed.indexed_of_place {b : Builder} (h : b.Indexed) {draft : FamilyDraft}
    {place : Nat} (found : b.families[place]? = some draft) : draft.Indexed := by
  rw [← Array.getElem?_toList] at found
  exact h.drafts draft (List.mem_of_getElem? found)

theorem Builder.Indexed.placed {b : Builder} (h : b.Indexed) : b.Placed where
  distinct := h.names_distinct
  family := h.getElem?_index
  group := fun draft member => (h.drafts draft member).getElem?_groups

theorem FamilyDraft.exists_ensured {draft : FamilyDraft} (h : draft.Indexed) (labels : Labels) :
    ∃ group, (draft.ensureGroup labels).1.samples[(draft.ensureGroup labels).2]? =
      some (.group group) := by
  cases found : draft.groups[labels.pairs]? with
  | some place =>
      obtain ⟨group, here, -⟩ := (h.getElem?_groups _ _).mp found
      simp only [ensureGroup, found]
      exact ⟨group, here⟩
  | none =>
      simp only [ensureGroup, found]
      exact ⟨.empty labels, Array.getElem?_push_size⟩

theorem Builder.exists_ensured {b : Builder} (h : b.Indexed) (name : String) :
    ∃ draft, (b.ensureFamily name).1.families[(b.ensureFamily name).2]? = some draft ∧
      draft.Indexed := by
  cases found : b.index[name]? with
  | some place =>
      obtain ⟨draft, here, -⟩ := (h.getElem?_index _ _).mp found
      simp only [ensureFamily, found]
      exact ⟨draft, here, h.indexed_of_place here⟩
  | none =>
      simp only [ensureFamily, found]
      exact ⟨.empty name, Array.getElem?_push_size, FamilyDraft.indexed_empty name⟩

namespace Builder

variable {b : Builder}

theorem indexed_comment (h : b.Indexed) (text : List Char) : (b.comment text).Indexed := by
  rw [comment_eq]
  cases remark? text with
  | none => exact h
  | some statement => exact indexed_change h statement.family statement.change

theorem indexed_sample {later : Builder} {line : SampleLine} (h : b.Indexed)
    (taken : b.sample line = .ok later) : later.Indexed := by
  rcases sample_cases taken with ⟨-, rfl⟩ | ⟨family, part, -, -, -, rfl⟩
  · exact indexed_change h _ _
  · exact indexed_change h _ _

theorem indexed_call (h : b.Indexed) (call : Call) : (b.call call).Indexed := by
  cases call with
  | comment text => exact indexed_comment h text
  | sample line =>
      rw [Builder.call]
      cases taken : b.sample line with
      | ok later => exact indexed_sample h taken
      | error cause => exact h

theorem indexed_calls (h : b.Indexed) (calls : List Call) : (calls.foldl call b).Indexed := by
  induction calls generalizing b with
  | nil => exact h
  | cons first rest ih => exact ih (indexed_call h first)

theorem indexed_readLine {later : Builder} {line : List Char} (h : b.Indexed)
    (taken : readLine b line = .ok later) : later.Indexed := by
  have heard := heard_readLine b line
  rw [taken] at heard
  cases heard with
  | said => exact indexed_change h _ _
  | silent => exact h

end Builder

namespace Checked

variable {b : Builder} {draft : FamilyDraft} {labels : Labels}

theorem modifyGroup?_eq_none_iff (f : GroupDraft → GroupDraft) :
    modifyGroup? draft labels f = none ↔
      ∃ place, draft.groups[labels.pairs]? = some place ∧ groupAt? draft place = none := by
  cases found : draft.groups[labels.pairs]? with
  | some place => simp [modifyGroup?, FamilyDraft.ensureGroup, found]
  | none => simp [modifyGroup?, FamilyDraft.ensureGroup, found, groupAt?]

theorem modifyGroup?_eq (h : draft.Indexed) (labels : Labels) (f : GroupDraft → GroupDraft) :
    modifyGroup? draft labels f = some (draft.modifyGroup labels f) := by
  obtain ⟨group, here⟩ := FamilyDraft.exists_ensured h labels
  simp only [modifyGroup?, groupAt?, here, Option.map_some, FamilyDraft.modifyGroup]
  rw [modify_of_getElem? here]

theorem modifyFamily?_eq (h : b.Indexed) (name : String) {f? : FamilyDraft → Option FamilyDraft}
    {f : FamilyDraft → FamilyDraft} (same : ∀ draft, draft.Indexed → f? draft = some (f draft)) :
    modifyFamily? b name f? = some (b.modifyFamily name f) := by
  obtain ⟨draft, here, indexed⟩ := Builder.exists_ensured h name
  simp only [modifyFamily?, here, Option.bind_some, same draft indexed, Option.map_some,
    Builder.modifyFamily]
  rw [modify_of_getElem? here]

theorem kind?_eq (h : b.Indexed) (name : String) : kind? b name = some (b.kind? name) := by
  rw [kind?, Builder.kind?]
  cases found : b.index[name]? with
  | none => rfl
  | some place =>
      obtain ⟨draft, here, -⟩ := (h.getElem?_index _ _).mp found
      simp [here]

theorem comment?_eq (h : b.Indexed) (text : List Char) : comment? b text = some (b.comment text) := by
  rw [comment?, Builder.comment]
  cases Text.splitWord (Text.trimStart text) with
  | mk keyword rest? =>
    cases rest? with
    | none => rfl
    | some rest =>
        dsimp only
        split
        next => rfl
        next =>
          split
          next => exact modifyFamily?_eq h _ fun _ _ => rfl
          next =>
            split
            next => exact modifyFamily?_eq h _ fun _ _ => rfl
            next => rfl

theorem bucketBase?_eq (h : b.Indexed) (name : String) :
    bucketBase? b name = some (b.bucketBase? name) := by
  rw [bucketBase?, Builder.bucketBase?]
  cases Builder.stripSuffix? name "_bucket" with
  | none => rfl
  | some base => simp [kind?_eq h, Option.filter]

theorem totalTarget?_eq (h : b.Indexed) (name : String) :
    totalTarget? b name = some (b.totalTarget? name) := by
  rw [totalTarget?, Builder.totalTarget?]
  cases Builder.stripSuffix? name "_sum" with
  | some base => simp [kind?_eq h, Option.filter]
  | none =>
      cases Builder.stripSuffix? name "_count" with
      | some base => simp [kind?_eq h, Option.filter]
      | none => rfl

theorem groupTarget?_eq (h : b.Indexed) (line : SampleLine) :
    groupTarget? b line = some (b.groupTarget line) := by
  rw [groupTarget?, Builder.groupTarget, kind?_eq h, Option.bind_some]
  split
  next => rfl
  next =>
    rw [bucketBase?_eq h, Option.bind_some]
    cases b.bucketBase? line.name with
    | some base => rfl
    | none => exact congrArg (Option.map Except.ok) (totalTarget?_eq h line.name)

theorem sample?_eq (h : b.Indexed) (line : SampleLine) : sample? b line = some (b.sample line) := by
  rw [sample?, Builder.sample, groupTarget?_eq h, Option.bind_some]
  cases b.groupTarget line with
  | error cause => rfl
  | ok target =>
      cases target with
      | none => exact congrArg (Option.map Except.ok) (modifyFamily?_eq h _ fun _ _ => rfl)
      | some target =>
          exact congrArg (Option.map Except.ok)
            (modifyFamily?_eq h _ fun _ indexed => modifyGroup?_eq indexed _ _)

theorem readLine?_eq (h : b.Indexed) (line : List Char) :
    readLine? b line = some (readLine b line) := by
  rw [readLine]
  split
  next blank => rw [readLine?, blank]
  next text hash =>
    rw [readLine?, hash]
    exact congrArg (Option.map Except.ok) (comment?_eq h text)
  next notBlank noComment =>
    rw [readLine?]
    split
    next blank => exact absurd blank notBlank
    next text hash => exact absurd hash (noComment text)
    next =>
      cases readSampleLine (Text.trim line) with
      | error cause => rfl
      | ok sample => exact sample?_eq h sample

theorem call?_eq (h : b.Indexed) (call : Call) : call? b call = some (b.call call) := by
  cases call with
  | comment text => exact comment?_eq h text
  | sample line => exact congrArg (Option.map b.orKept) (sample?_eq h line)

theorem calls?_eq (h : b.Indexed) (calls : List Call) :
    calls.foldlM call? b = some (calls.foldl Builder.call b) := by
  induction calls generalizing b with
  | nil => rfl
  | cons first rest ih =>
      rw [List.foldlM_cons, call?_eq h, List.foldl_cons]
      exact ih (Builder.indexed_call h first)

theorem readLines?_eq (h : b.Indexed) (next : Nat) (lines : List (List Char)) :
    readLines? next b lines = some (readLines next b lines) := by
  -- Every line begins with a builder whose places are right, whether the last one was taken or not.
  induction lines generalizing b next with
  | nil => rfl
  | cons line rest ih =>
      rw [readLines?, readLines, readLine?_eq h, Option.bind_some]
      cases taken : readLine b line with
      | ok later => exact ih (Builder.indexed_readLine h taken) (next + 1)
      | error cause =>
          dsimp only
          rw [ih h]
          split <;> rfl

end Checked

/-- Whatever a builder is given, its places stay right; so no lookup fails, neither on the way nor
in the reading of a text. -/
theorem lookups_never_fail :
    (∀ calls, (Builder.run calls).Placed ∧ Checked.run? calls = some (Builder.run calls)) ∧
      ∀ text, Checked.read? text = some (read text) := by
  have start := Builder.indexed_empty
  refine ⟨fun calls => ⟨?_, ?_⟩, fun text => ?_⟩
  · exact (Builder.indexed_calls start calls).placed
  · exact Checked.calls?_eq start calls
  · exact Checked.readLines?_eq start 1 (Text.lines text.toList)

end ProxyMonitor.Exposition
