import ProxyMonitor.Proofs.Exposition.Hearing

/-! Lines of a histogram or a summary share a sample if their labels agree apart from both marks,
so a line that carries the mark of the other kind loses it. -/

namespace ProxyMonitor.Exposition

def takenFrom (past : List (List Char)) : List (List Char) → List Taken
  | [] => []
  | line :: rest =>
    ((sampleLine? line).bind (SampleLine.taken? (declaredKind past))).toList ++
      takenFrom (past ++ [line]) rest

def taken (lines : List (List Char)) : List Taken := takenFrom [] lines

def linesBehind (lines : List (List Char)) (name : String) : List (Portion Taken) :=
  gather (fun taken => taken.entry.key?) ((taken lines).filter (·.entry.family = name))

def sampleFrom (kind : MetricKind) (portion : Portion Taken) : Sample :=
  sampleOf kind (portion.map Taken.entry)

/-- The sample at this place is made from the line, perhaps with others. -/
def WentTo (lines : List (List Char)) (family : Family) (line : Taken) (place : Nat) : Prop :=
  ∃ portion, (linesBehind lines family.name)[place]? = some portion ∧ line ∈ portion.items

/-- Lines of groups share a sample if and only if `own` makes the same of their labels, and the
labels of the sample are what it makes of them. -/
structure ToldApartBy (own : Labels → Labels) (lines : List (List Char)) (family : Family) :
    Prop where
  same_place_iff : ∀ (first second : Taken) (place other : Nat),
    first.target.isSome → second.target.isSome → WentTo lines family first place →
      WentTo lines family second other →
        (place = other ↔ own first.line.labels = own second.line.labels)
  labels : ∀ (line : Taken) (place : Nat), line.target.isSome → WentTo lines family line place →
    (family.samples[place]?).map Sample.labels = some (own line.line.labels)

/-- Whenever a line comes that the name can take in, the name is known to be of this kind. -/
def TypedFirst (kind : MetricKind) (lines : List (List Char)) (name : String) : Prop :=
  declaredKind lines name = kind ∧
    ∀ i, ∀ below : i < lines.length, ∀ suffix ∈ lineSuffixes,
      sampledName? lines[i] = some (name ++ suffix) → declaredKind (lines.take i) name = kind

instance (kind : MetricKind) (lines : List (List Char)) (name : String) :
    Decidable (TypedFirst kind lines name) := inferInstanceAs (Decidable (_ ∧ _))

theorem entries_append (first second : List Statement) :
    entries (first ++ second) = entries first ++ entries second := List.filterMap_append

theorem entries_toList (statement : Option Statement) :
    entries statement.toList = (statement.bind Statement.sample?).toList := by
  cases statement with
  | none => rfl
  | some statement => cases statement <;> rfl

theorem entries_heardFrom (past rest : List (List Char)) :
    entries (heardFrom past rest) = (takenFrom past rest).map Taken.entry := by
  induction rest generalizing past with
  | nil => rfl
  | cons line rest ih =>
      rw [heardFrom, takenFrom, entries_append, ih, List.map_append, entries_toList, heard?,
        bind_sample_or fun none => by rw [none]; rfl]
      cases (sampleLine? line).bind (SampleLine.taken? (declaredKind past)) <;> rfl

theorem portionsOf_heard (lines : List (List Char)) (name : String) :
    portionsOf (heard lines) name = (linesBehind lines name).map (Portion.map Taken.entry) := by
  rw [portionsOf, entriesOf, heard, entries_heardFrom, List.filter_map, gather_map]
  rfl

theorem exists_line_of_taken {past rest : List (List Char)} {line : Taken}
    (member : line ∈ takenFrom past rest) :
    ∃ before text after, rest = before ++ text :: after ∧ sampleLine? text = some line.line ∧
      line.line.target? (declaredKind (past ++ before)) = some line.target := by
  induction rest generalizing past with
  | nil => cases member
  | cons text rest ih =>
      rcases List.mem_append.mp member with here | later
      · obtain ⟨sample, read, found⟩ := Option.bind_eq_some_iff.mp (Option.mem_toList.mp here)
        obtain ⟨target, known, rfl⟩ := Option.map_eq_some_iff.mp found
        exact ⟨[], text, rest, rfl, read, by rwa [List.append_nil]⟩
      · obtain ⟨before, other, after, rfl, read, known⟩ := ih later
        refine ⟨text :: before, other, after, rfl, read, ?_⟩
        rwa [List.append_assoc] at known

section

variable {lines : List (List Char)} {family : Family} {line : Taken} {place : Nat}

theorem key_of_part (part : line.target.isSome) :
    line.entry.key? = some (unmarked line.line.labels).pairs := by
  obtain ⟨target, here⟩ := Option.isSome_iff_exists.mp part
  rw [Taken.entry, here]
  rfl

theorem key_of_place {name : String} {portion : Portion Taken}
    (here : (linesBehind lines name)[place]? = some portion) (inside : line ∈ portion.items)
    (part : line.target.isSome) :
    portion.first.entry.key? = some (unmarked line.line.labels).pairs := by
  rw [← key_of_part part]
  exact (key_of_mem_items (List.mem_of_getElem? here) inside).symm

theorem labels_of_key {entry : Entry} {labels : Labels} (keyed : entry.key? = some labels.pairs) :
    entry.labels = labels := by
  obtain ⟨part, -, same⟩ := Option.map_eq_some_iff.mp keyed
  exact Labels.ext_pairs same

theorem exists_place (member : line ∈ taken lines) (own : line.entry.family = family.name) :
    ∃ place, WentTo lines family line place := by
  have among : line ∈ (taken lines).filter (·.entry.family = family.name) :=
    List.mem_filter.mpr ⟨member, decide_eq_true own⟩
  have gathered := flatMap_items_gather_perm (fun taken : Taken => taken.entry.key?)
    ((taken lines).filter (·.entry.family = family.name))
  obtain ⟨portion, listed, inside⟩ := List.mem_flatMap.mp (gathered.mem_iff.mpr among)
  obtain ⟨place, here⟩ := List.getElem?_of_mem listed
  exact ⟨place, portion, here, inside⟩

theorem WentTo.mem (h : WentTo lines family line place) :
    line ∈ taken lines ∧ line.entry.family = family.name := by
  obtain ⟨portion, here, inside⟩ := h
  have among := (items_sublist (List.mem_of_getElem? here)).subset inside
  obtain ⟨member, own⟩ := List.mem_filter.mp among
  exact ⟨member, of_decide_eq_true own⟩

theorem toldApartBy_unmarked
    (samples : family.samples = (linesBehind lines family.name).map (sampleFrom family.kind)) :
    ToldApartBy unmarked lines family where
  same_place_iff := by
    rintro first second place other part alsoPart ⟨portion, here, inside⟩ ⟨further, there, also⟩
    have keyed := key_of_place here inside part
    have alsoKeyed := key_of_place there also alsoPart
    constructor
    · -- At one place there is one portion, whose key both lines have.
      rintro rfl
      obtain rfl := Option.some.inj (here.symm.trans there)
      exact Labels.ext_pairs (Option.some.inj (keyed.symm.trans alsoKeyed))
    · intro same
      rw [same] at keyed
      exact place_of_key here there keyed alsoKeyed
  labels := by
    rintro line place part ⟨portion, here, inside⟩
    have keyed := key_of_place here inside part
    rw [samples, List.getElem?_map, here]
    exact congrArg some (labels_of_key keyed)

theorem foreign_free_of_toldApartBy {kind : MetricKind}
    (unmarkedApart : ToldApartBy unmarked lines family)
    (apart : ToldApartBy (·.erase kind.mark) lines family) (member : line ∈ taken lines)
    (own : line.entry.family = family.name) (part : line.target.isSome) :
    line.line.labels.contains kind.foreignMark = false := by
  obtain ⟨place, went⟩ := exists_place member own
  have same : unmarked line.line.labels = line.line.labels.erase kind.mark :=
    Option.some.inj ((unmarkedApart.labels line place part went).symm.trans
      (apart.labels line place part went))
  rw [Bool.eq_false_iff]
  intro foreign
  have different : kind.foreignMark ≠ kind.mark := by
    rw [MetricKind.foreignMark, MetricKind.mark]
    split <;> decide
  have kept : (unmarked line.line.labels).contains kind.foreignMark = true := by
    rw [same]
    exact (Labels.contains_erase _ _).mpr ⟨foreign, different⟩
  rw [unmarked, Labels.contains_erase, Labels.contains_erase] at kept
  obtain ⟨⟨-, notLe⟩, notQuantile⟩ := kept
  by_cases summary : kind = .summary
  · exact notLe (if_pos summary)
  · exact notQuantile (if_neg summary)

theorem toldApartBy_mark {kind : MetricKind} (unmarkedApart : ToldApartBy unmarked lines family)
    (foreignFree : ∀ line ∈ taken lines, line.entry.family = family.name → line.target.isSome →
      line.line.labels.contains kind.foreignMark = false) :
    ToldApartBy (·.erase kind.mark) lines family := by
  have same : ∀ {line : Taken} {place : Nat}, line.target.isSome → WentTo lines family line place →
      unmarked line.line.labels = line.line.labels.erase kind.mark := by
    intro line place part went
    obtain ⟨member, own⟩ := went.mem
    exact erase_marks (foreignFree line member own part)
  constructor
  · intro first second place other part alsoPart went alsoWent
    have iff := unmarkedApart.same_place_iff first second place other part alsoPart went alsoWent
    rwa [same part went, same alsoPart alsoWent] at iff
  · intro line place part went
    rw [← same part went]
    exact unmarkedApart.labels line place part went

end

theorem samples_of_shows {lines : List (List Char)} {last : Builder}
    (shows : last.Shows (sketched (heard lines))) {family : Family}
    (member : family ∈ last.finish) :
    family.samples = (linesBehind lines family.name).map (sampleFrom family.kind) := by
  have own := eq_familyOf shows member
  have kind : family.kind = lastKind (heard lines) family.name := congrArg Family.kind own
  rw [kind]
  refine (congrArg Family.samples own).trans ?_
  rw [familyOf, portionsOf_heard, List.map_map]
  rfl

theorem exists_target_of_name {kinds : String → MetricKind} {line : SampleLine} {family : String}
    {part : GroupPart} {target : Option GroupTarget} (found : line.target? kinds = some target)
    (name : line.name = part.lineName family) (fits : part.Fits (kinds family)) :
    ∃ here, target = some here ∧ (here.family = family ∨ here.family = line.name) := by
  by_cases shadowed : kinds line.name = .summary
  · rw [SampleLine.target?, if_pos shadowed] at found
    obtain ⟨level, -, rfl⟩ := Option.map_eq_some_iff.mp found
    exact ⟨_, rfl, .inr rfl⟩
  · cases part with
    | quantile level => exact absurd (name ▸ fits) shadowed
    | bucket upperBound =>
        have base : bucketed? kinds line.name = some family := bucketed_eq_some_iff.mpr ⟨name, fits⟩
        rw [SampleLine.target?, if_neg shadowed, base] at found
        obtain ⟨bound, -, rfl⟩ := Option.map_eq_some_iff.mp found
        exact ⟨_, rfl, .inl rfl⟩
    | sum =>
        rw [SampleLine.target_of_total (.inl rfl) name fits shadowed] at found
        exact ⟨_, (Option.some.inj found).symm, .inl rfl⟩
    | count =>
        rw [SampleLine.target_of_total (.inr rfl) name fits shadowed] at found
        exact ⟨_, (Option.some.inj found).symm, .inl rfl⟩

theorem TypedFirst.exists_target {kind : MetricKind} {lines : List (List Char)} {name : String}
    (typed : TypedFirst kind lines name) {line : Taken} (member : line ∈ taken lines)
    {part : GroupPart} (fits : part.Fits kind) (spelled : line.line.name = part.lineName name) :
    ∃ target, line.target = some target ∧
      (target.family = name ∨ target.family = line.line.name) := by
  obtain ⟨before, text, after, split, read, known⟩ := exists_line_of_taken member
  obtain ⟨suffix, listed, suffixed⟩ := exists_suffix part name
  have sampled : sampledName? text = some (name ++ suffix) := by
    rw [sampledName?, readSampleLine_of_sampleLine read, ← suffixed, ← spelled]
  subst split
  have settled := typed.2 before.length (by simp) suffix listed (by simpa using sampled)
  rw [List.take_left] at settled
  exact exists_target_of_name known spelled (settled ▸ fits)

structure SeriesApart (lines : List (List Char)) (family : Family) : Prop where
  samples : family.samples = (linesBehind lines family.name).map (sampleFrom family.kind)
  placed : ∀ line ∈ taken lines, line.entry.family = family.name →
    ∃ place, WentTo lines family line place
  apart : ToldApartBy unmarked lines family
  kind : ∀ kind, TypedFirst kind lines family.name → family.kind = kind
  /-- A line with the name of a part is a part of the family, unless a summary has its name. -/
  parts : ∀ kind, TypedFirst kind lines family.name → ∀ line ∈ taken lines,
    ∀ part : GroupPart, part.Fits kind → line.line.name = part.lineName family.name →
      ∃ target, line.target = some target ∧
        (target.family = family.name ∨ target.family = line.line.name)
  /-- To leave out the mark of the kind alone is enough where no part has the other mark, and
  nowhere else. -/
  byMark : ∀ kind, TypedFirst kind lines family.name →
    (ToldApartBy (·.erase kind.mark) lines family ↔
      ∀ line ∈ taken lines, line.entry.family = family.name → line.target.isSome →
        line.line.labels.contains kind.foreignMark = false)

/-- Lines of a family share a sample if and only if they have the same labels less both marks. -/
theorem read_tells_series_apart (text : String) (families : List Family)
    (parsed : (read text).families = .ok families) :
    ∀ family ∈ families, SeriesApart (Text.lines text.toList) family := by
  intro family member
  obtain ⟨⟨last, shows, rfl⟩, -⟩ := read_heard parsed
  have samples := samples_of_shows shows member
  have apart := toldApartBy_unmarked samples
  have kind : family.kind = declaredKind (Text.lines text.toList) family.name := by
    rw [← lastKind_heard_all]
    exact congrArg Family.kind (eq_familyOf shows member)
  exact {
    samples
    placed := fun line => exists_place
    apart
    kind := fun _ typed => kind.trans typed.1
    parts := fun _ typed line member part fits spelled => typed.exists_target member fits spelled
    byMark := fun _ _ => ⟨fun byMark _ member own part =>
      foreign_free_of_toldApartBy apart byMark member own part, toldApartBy_mark apart⟩ }

def crossedLines : List (List Char) :=
  ["# TYPE wait histogram", "wait_bucket\x7ble=\"1\",quantile=\"a\"\x7d 1",
    "wait_bucket\x7ble=\"1\",quantile=\"b\"\x7d 2", "# TYPE rate summary",
    "rate\x7bm=\"a\",quantile=\"0.5\"\x7d 1", "rate_sum\x7bm=\"b\"\x7d 2"].map String.toList

theorem lines_crossed : Text.lines (textOf crossedLines).toList = crossedLines :=
  lines_textOf (by decide +kernel)

theorem exists_families_crossed :
    ∃ families, (read (textOf crossedLines)).families = .ok families := by
  rw [read, readLines_ok_iff, lines_crossed]
  decide +kernel

theorem read_tells_series_apart_crossed :
    ∃ families, (read (textOf crossedLines)).families = .ok families ∧
      families.map Family.name = ["wait", "rate"] ∧
      ∀ family ∈ families, family.name = "rate" → family.kind = .summary ∧
        ToldApartBy (·.erase "quantile") crossedLines family := by
  obtain ⟨families, parsed⟩ := exists_families_crossed
  have apart := read_tells_series_apart (textOf crossedLines) families parsed
  obtain ⟨⟨last, shows, rfl⟩, -⟩ := read_heard parsed
  rw [lines_crossed] at shows apart
  refine ⟨last.finish, parsed, ?_, fun family member named => ?_⟩
  · rw [names_of_shows shows]
    decide +kernel
  · have typed : TypedFirst .summary crossedLines family.name := by
      rw [named]
      decide +kernel
    refine ⟨(apart family member).kind .summary typed, ?_⟩
    refine ((apart family member).byMark .summary typed).mpr ?_
    rw [named]
    decide +kernel

/-- Leaving out the mark of histograms alone does not tell the lines of this one apart. -/
theorem crossed_not_told_apart_by_mark :
    ∃ families, (read (textOf crossedLines)).families = .ok families ∧
      ∃ family ∈ families, family.name = "wait" ∧
        TypedFirst .histogram crossedLines family.name ∧
        ¬ ToldApartBy (·.erase "le") crossedLines family := by
  obtain ⟨families, parsed⟩ := exists_families_crossed
  obtain ⟨⟨last, shows, rfl⟩, -⟩ := read_heard parsed
  rw [lines_crossed] at shows
  have names : last.finish.map Family.name = ["wait", "rate"] := by
    rw [names_of_shows shows]
    decide +kernel
  obtain ⟨family, member, named⟩ : ∃ family ∈ last.finish, family.name = "wait" := by
    rw [← List.mem_map, names]
    decide
  obtain ⟨line, taken, own, part, foreign⟩ : ∃ line ∈ taken crossedLines,
      line.entry.family = "wait" ∧ line.target.isSome ∧
        line.line.labels.contains MetricKind.histogram.foreignMark = true := by
    decide +kernel
  refine ⟨last.finish, parsed, family, member, named, ?_, fun byMark => ?_⟩
  · rw [named]
    decide +kernel
  · have byMark : ToldApartBy (·.erase MetricKind.histogram.mark) crossedLines family := byMark
    have apart := toldApartBy_unmarked (samples_of_shows shows member)
    have free := foreign_free_of_toldApartBy apart byMark taken (own.trans named.symm) part
    rw [foreign] at free
    cases free

end ProxyMonitor.Exposition
