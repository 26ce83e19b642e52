import ProxyMonitor.Proofs.Exposition.Groups

namespace ProxyMonitor.Exposition

/-- The builder shows earlier sketches and then this one, which may be missing while it is bare. -/
structure Standing (b : Builder) (before : List Sketch) (current : Sketch) : Prop where
  fresh : current.name ∉ before.map Sketch.name
  shown : ∃ last : Option Sketch, b.Shows (before ++ last.toList) ∧
    last.getD (.empty current.name) = current

namespace Standing

variable {b : Builder} {before : List Sketch} {current : Sketch}

theorem start (shows : b.Shows before) {name : String} (fresh : name ∉ before.map Sketch.name) :
    Standing b before (.empty name) :=
  ⟨fresh, none, by rwa [Option.toList_none, List.append_nil], rfl⟩

theorem settle (h : Standing b before current) (stated : current ≠ .empty current.name) :
    b.Shows (before ++ [current]) := by
  obtain ⟨-, last, shows, same⟩ := h
  cases last with
  | none => exact absurd same.symm stated
  | some sketch =>
      obtain rfl : sketch = current := same
      exact shows

theorem change (h : Standing b before current) (change : Change) :
    Standing (b.change current.name change) before (change.onSketch current) := by
  obtain ⟨fresh, last, shows, same⟩ := h
  refine ⟨by rwa [change.onSketch_name], some (change.onSketch current), ?_, rfl⟩
  have changed := shows.change current.name change
  have revised : revise current.name change (before ++ last.toList) =
      before ++ [change.onSketch (last.getD (.empty current.name))] := by
    refine upsert_append ?_ ?_
    · intro sketch member
      rw [beq_eq_false_iff_ne, Ne, Option.some.injEq]
      intro same
      exact fresh (same ▸ List.mem_map_of_mem member)
    · intro sketch last
      cases last
      rw [Option.getD_some] at same
      rw [same, beq_self_eq_true]
  rw [revised, same] at changed
  exact changed

theorem kindOf (h : Standing b before current) :
    b.kindOf = kindIn (before.map Sketch.heading ++ [current.heading]) := by
  obtain ⟨-, last, shows, same⟩ := h
  rw [shows.kindOf, List.map_append]
  cases last with
  | none =>
      rw [Option.getD_none] at same
      rw [← same]
      exact (List.append_nil (before.map Sketch.heading)).symm ▸ (kindIn_append_unknown _ _).symm
  | some sketch =>
      rw [Option.getD_some] at same
      rw [← same]
      rfl

theorem kindOf_self (h : Standing b before current) : b.kindOf current.name = current.kind := by
  have fresh : current.name ∉ (before.map Sketch.heading).map Prod.fst := by
    rw [List.map_map]
    exact h.fresh
  rw [h.kindOf, kindIn_append_of_fresh fresh, Sketch.heading, kindIn_cons, if_pos rfl]

end Standing

def sketchOf (family : Family) (drafts : List SampleDraft) : Sketch :=
  ⟨family.name, family.help, family.kind, drafts⟩

def kindsAt (before : List Sketch) (family : Family) : String → MetricKind :=
  kindIn (before.map Sketch.heading ++ [(family.name, family.kind)])

def tellAll (labels : Labels) (group : Option GroupDraft) (parts : List (GroupPart × Binary64)) :
    Option GroupDraft :=
  parts.foldl (fun group part => some (tell (group.getD (.empty labels)) part)) group

def begun (group : Option GroupDraft) : List SampleDraft := (group.map SampleDraft.group).toList

theorem tellAll_of_ne_nil {labels : Labels} {group : Option GroupDraft}
    {parts : List (GroupPart × Binary64)} (some : parts ≠ []) :
    tellAll labels group parts = .some (parts.foldl tell (group.getD (.empty labels))) := by
  induction parts generalizing group with
  | nil => exact absurd rfl some
  | cons part rest ih =>
      rw [tellAll, List.foldl_cons, ← tellAll]
      cases rest with
      | nil => rfl
      | cons second rest => exact ih (List.cons_ne_nil _ _)

section

variable {strict : Prop} {b : Builder} {before : List Sketch} {family : Family}
  {drafts : List SampleDraft}

theorem Standing.record {labels : Labels} {group : Option GroupDraft}
    (h : Standing b before (sketchOf family (drafts ++ begun group)))
    (fresh : ∀ draft ∈ drafts, draft.key? ≠ some labels.pairs)
    (held : ∀ started ∈ group, started.labels = labels) (part : GroupPart × Binary64) :
    Standing (b.change family.name (.record labels part.1.canonical part.2.canonical)) before
      (sketchOf family (drafts ++ begun (some (tell (group.getD (.empty labels)) part)))) := by
  have changed := h.change (.record labels part.1.canonical part.2.canonical)
  have placed : upsert SampleDraft.key? labels.pairs (.group (.empty labels))
      (.mapGroup (·.record part.2.canonical part.1.canonical))
      (drafts ++ begun group) =
        drafts ++ begun (some (tell (group.getD (.empty labels)) part)) := by
    rw [begun, upsert_append]
    · cases group <;> rfl
    · intro draft member
      exact beq_eq_false_iff_ne.mpr (fresh draft member)
    · intro draft last
      obtain ⟨started, is, rfl⟩ := Option.map_eq_some_iff.mp last
      rw [SampleDraft.key?, held started is, beq_self_eq_true]
  simp only [Change.onSketch, sketchOf, placed] at changed
  exact changed

theorem Standing.run_parts {labels : Labels} {parts : List (GroupPart × Binary64)}
    {group : Option GroupDraft}
    (h : Standing b before (sketchOf family (drafts ++ begun group)))
    (isName : MetricName family.name.toList)
    (labelNames : ∀ pair ∈ labels.pairs, LabelName pair.1.toList) (plain : GroupLabels labels)
    (fresh : ∀ draft ∈ drafts, draft.key? ≠ some labels.pairs)
    (held : ∀ started ∈ group, started.labels = labels)
    (fits : ∀ part ∈ parts, part.1.Fits family.kind)
    (clear : strict → ∀ part ∈ parts, part.1.Clear (kindsAt before family) family.name) :
    ∃ last, Run strict b (parts.map (partText family.name labels)) last ∧
      Standing last before (sketchOf family (drafts ++ begun (tellAll labels group
        (parts.filter fun part => part.1.Clear (kindsAt before family) family.name)))) := by
  induction parts generalizing b group with
  | nil => exact ⟨b, .nil, h⟩
  | cons part rest ih =>
      -- no part line declares a kind, so what is clear at the start of the group stays clear
      have laterFits := fun other member => fits other (List.mem_cons_of_mem _ member)
      have laterClear := fun always other member =>
        clear always other (List.mem_cons_of_mem part member)
      have kinds : b.kindOf = kindsAt before family := h.kindOf
      have kind : b.kindOf family.name = family.kind := h.kindOf_self
      by_cases taken : part.1.Clear (kindsAt before family) family.name
      · have read := readLine_partText isName labelNames plain
          (kind ▸ fits part List.mem_cons_self) (kinds ▸ taken) part.2
        have next := h.record fresh held part
        have keeps : ∀ started ∈ some (tell (group.getD (.empty labels)) part),
            started.labels = labels := by
          intro started same
          cases same
          rw [tell, GroupDraft.record_labels]
          cases group with
          | none => rfl
          | some earlier => exact held earlier rfl
        obtain ⟨last, run, stands⟩ := ih next keeps laterFits laterClear
        refine ⟨last, .take read run, ?_⟩
        rw [List.filter_cons_of_pos (by simpa using taken)]
        exact stands
      · have failed := readLine_partText_of_shadowed isName labelNames plain (kinds ▸ taken) part.2
        obtain ⟨last, run, stands⟩ := ih h held laterFits laterClear
        refine ⟨last, .skip (fun always => taken (clear always part List.mem_cons_self)) failed rfl
          run, ?_⟩
        rw [List.filter_cons_of_neg (by simpa using taken)]
        exact stands

theorem Standing.run_sample {sample : Sample} (h : Standing b before (sketchOf family drafts))
    (isName : MetricName family.name.toList)
    (labelNames : ∀ pair ∈ sample.labels.pairs, LabelName pair.1.toList)
    (fresh : ∀ draft ∈ drafts, ∀ key ∈ groupKey? sample, draft.key? ≠ some key)
    (told : Told (kindsAt before family) family sample)
    (clear : strict → ∀ part ∈ groupParts sample.value,
      part.1.Clear (kindsAt before family) family.name) :
    ∃ last draft, Run strict b (sampleLines family.name sample) last ∧
      Standing last before (sketchOf family (drafts ++ [draft])) ∧
      draft.finish family.kind = sample.canonical ∧ draft.key? = groupKey? sample := by
  cases told with
  | @single value alone loose =>
      have read := readLine_sampleText b isName labelNames (.refl _) value
      rw [Builder.sample_of_loose (h.kindOf ▸ loose)] at read
      have next := h.change (.single ⟨sample.labels, .single value.canonical⟩)
      refine ⟨_, .single ⟨sample.labels, .single value.canonical⟩, ?_, next, ?_, ?_⟩
      · rw [sampleLines, alone]
        exact .single read
      · rw [SampleDraft.finish, Sample.canonical, alone]
        rfl
      · rw [groupKey?, alone]
        rfl
  | group kind plain told visible =>
      have key : groupKey? sample = some sample.labels.pairs := by rw [groupKey?, kind]; rfl
      have lines : sampleLines family.name sample =
          (groupParts sample.value).map (partText family.name sample.labels) := by
        rw [sampleLines]
        split
        next value alone => rw [alone] at kind; cases kind
        next value => rw [value]
        next value => rw [value]
      -- Before its first line a group has no draft: `begun none`.
      have start : Standing b before (sketchOf family (drafts ++ begun none)) := by
        simpa [begun] using h
      obtain ⟨last, run, stands⟩ := start.run_parts isName labelNames plain
        (fun draft member => fresh draft member _ key) (by simp) (fits_of_groupKind kind) clear
      have some : ((groupParts sample.value).filter fun part =>
          part.1.Clear (kindsAt before family) family.name) ≠ [] := by
        obtain ⟨part, member, taken⟩ := visible
        exact List.ne_nil_of_mem (List.mem_filter.mpr ⟨member, by simpa using taken⟩)
      rw [tellAll_of_ne_nil some] at stands
      refine ⟨last, _, lines ▸ run, stands, ?_, ?_⟩
      · exact finish_foldl_tell kind told
      · rw [key, SampleDraft.key?, foldl_tell_labels]
        rfl

theorem Standing.run_samples {samples : List Sample} (h : Standing b before (sketchOf family drafts))
    (isName : MetricName family.name.toList)
    (labelNames : ∀ sample ∈ samples, ∀ pair ∈ sample.labels.pairs, LabelName pair.1.toList)
    (distinct : (drafts.filterMap SampleDraft.key? ++ samples.filterMap groupKey?).Nodup)
    (told : ∀ sample ∈ samples, Told (kindsAt before family) family sample)
    (clear : strict → ∀ sample ∈ samples, ∀ part ∈ groupParts sample.value,
      part.1.Clear (kindsAt before family) family.name) :
    ∃ last more, Run strict b (samples.flatMap (sampleLines family.name)) last ∧
      Standing last before (sketchOf family (drafts ++ more)) ∧
      more.map (SampleDraft.finish family.kind) = samples.map Sample.canonical := by
  induction samples generalizing b drafts with
  | nil => exact ⟨b, [], .nil, by rwa [List.append_nil], rfl⟩
  | cons sample rest ih =>
      have fresh : ∀ draft ∈ drafts, ∀ key ∈ groupKey? sample, draft.key? ≠ some key := by
        intro draft member key mine other
        have inside : key ∈ drafts.filterMap SampleDraft.key? :=
          List.mem_filterMap.mpr ⟨draft, member, other⟩
        have ahead : key ∈ (sample :: rest).filterMap groupKey? :=
          List.mem_filterMap.mpr ⟨sample, List.mem_cons_self, mine⟩
        exact (List.nodup_append.mp distinct).2.2 key inside key ahead rfl
      obtain ⟨middle, draft, first, stands, finished, key⟩ := h.run_sample isName
        (labelNames sample List.mem_cons_self) fresh (told sample List.mem_cons_self)
        fun always => clear always sample List.mem_cons_self
      -- The draft of this sample has its key, so the keys ahead are the same as before.
      have laterDistinct : ((drafts ++ [draft]).filterMap SampleDraft.key? ++
          rest.filterMap groupKey?).Nodup := by
        rw [List.filterMap_append, List.append_assoc]
        have same : [draft].filterMap SampleDraft.key? ++ rest.filterMap groupKey? =
            (sample :: rest).filterMap groupKey? := by
          rw [List.filterMap_cons, List.filterMap_cons, key]
          cases groupKey? sample <;> rfl
        rwa [same]
      obtain ⟨last, more, later, settled, others⟩ := ih stands
        (fun other member => labelNames other (List.mem_cons_of_mem _ member)) laterDistinct
        (fun other member => told other (List.mem_cons_of_mem _ member))
        fun always other member => clear always other (List.mem_cons_of_mem _ member)
      refine ⟨last, draft :: more, ?_, ?_, ?_⟩
      · rw [List.flatMap_cons]
        exact first.append later
      · rwa [List.append_assoc] at settled
      · rw [List.map_cons, List.map_cons, finished, others]

theorem run_comments (shows : b.Shows before) (fresh : family.name ∉ before.map Sketch.name)
    (writable : Writable family) :
    ∃ last, Run strict b (helpLines family ++ kindLines family) last ∧
      Standing last before (sketchOf family []) := by
  have bare := Standing.start shows fresh
  have described : ∃ middle, Run strict b (helpLines family) middle ∧
      Standing middle before ⟨family.name, family.help, .unknown, []⟩ := by
    rw [helpLines]
    split
    next none => exact ⟨b, .nil, none ▸ bare⟩
    next some =>
      exact ⟨_, .single (readLine_helpLine b writable.name writable.help some),
        bare.change (.describe family.help)⟩
  obtain ⟨middle, first, stands⟩ := described
  have declared : ∃ last, Run strict middle (kindLines family) last ∧
      Standing last before (sketchOf family []) := by
    rw [kindLines]
    split
    next unknown =>
      refine ⟨middle, .nil, ?_⟩
      rw [sketchOf, unknown]
      exact stands
    next known =>
      exact ⟨_, .single (readLine_kindLine middle writable.name family.kind),
        stands.change (.declare family.kind)⟩
  obtain ⟨last, second, settled⟩ := declared
  exact ⟨last, first.append second, settled⟩

end

def headings (families : List Family) : List (String × MetricKind) :=
  families.map fun family => (family.name, family.kind)

def kindsOf (families : List Family) : String → MetricKind := kindIn (headings families)

/-- Families whose lines lead back to them. -/
structure Recoverable (families : List Family) : Prop where
  distinct : (families.map Family.name).Nodup
  writable : ∀ family ∈ families, Writable family
  shown : ∀ family ∈ families, family.kind = .unknown → family.help ≠ "" ∨ family.samples ≠ []
  groups : ∀ family ∈ families, (family.samples.filterMap groupKey?).Nodup
  told : ∀ family ∈ families, ∀ sample ∈ family.samples, Told (kindsOf families) family sample

/-- No summary shadows a line of these families. -/
def Unshadowed (families : List Family) : Prop :=
  ∀ family ∈ families, ∀ sample ∈ family.samples, ∀ part ∈ groupParts sample.value,
    part.1.Clear (kindsOf families) family.name

section

variable {kinds fewer : String → MetricKind} (known : ∀ name, fewer name ≠ .unknown →
  kinds name = fewer name)

include known

theorem GroupPart.Clear.mono {name : String} {part : GroupPart} (h : part.Clear kinds name) :
    part.Clear fewer name :=
  h.imp fun summary => (known _ (by rw [summary]; decide)).trans summary

theorem Loose.mono {name : String} (h : Loose kinds name) : Loose fewer name := by
  intro family part line fits
  have told : fewer family ≠ .unknown := by
    rcases fits.known with kind | kind <;> rw [kind] <;> decide
  exact h family part line ((known family told).symm ▸ fits)

theorem Told.mono {family : Family} {sample : Sample} (h : Told kinds family sample) :
    Told fewer family sample := by
  cases h with
  | single alone loose => exact .single alone (loose.mono known)
  | group kind plain told visible =>
      obtain ⟨part, member, clear⟩ := visible
      exact .group kind plain (fun part member => (told part member).imp_left (·.mono known))
        ⟨part, member, clear.mono known⟩

end

section

variable {strict : Prop} {b : Builder} {before : List Sketch}

theorem run_family {family : Family} (shows : b.Shows before)
    (fresh : family.name ∉ before.map Sketch.name) (writable : Writable family)
    (shown : family.kind = .unknown → family.help ≠ "" ∨ family.samples ≠ [])
    (distinct : (family.samples.filterMap groupKey?).Nodup)
    (told : ∀ sample ∈ family.samples, Told (kindsAt before family) family sample)
    (clear : strict → ∀ sample ∈ family.samples, ∀ part ∈ groupParts sample.value,
      part.1.Clear (kindsAt before family) family.name) :
    ∃ last sketch, Run strict b (familyLines family) last ∧ last.Shows (before ++ [sketch]) ∧
      sketch.finish = family.canonical := by
  obtain ⟨middle, comments, bare⟩ := run_comments shows fresh writable
  obtain ⟨last, drafts, samples, stands, finished⟩ :=
    bare.run_samples writable.name writable.labels distinct told clear
  -- a family that no line mentions would be missing from the builder
  have stated : sketchOf family drafts ≠ .empty (sketchOf family drafts).name := by
    intro empty
    simp only [sketchOf, Sketch.empty, Sketch.mk.injEq, true_and] at empty
    obtain ⟨noHelp, unknown, rfl⟩ := empty
    rcases shown unknown with help | some
    · exact help noHelp
    · exact some (List.map_eq_nil_iff.mp finished.symm)
  refine ⟨last, sketchOf family drafts, comments.append samples, stands.settle stated, ?_⟩
  rw [Sketch.finish, sketchOf, finished]
  rfl

theorem run_families {families done later : List Family} (h : Recoverable families)
    (clear : strict → Unshadowed families) (split : families = done ++ later)
    (shows : b.Shows before) (finished : before.map Sketch.finish = done.map Family.canonical) :
    ∃ last sketches, Run strict b (later.flatMap familyLines) last ∧
      last.Shows (before ++ sketches) ∧ sketches.map Sketch.finish = later.map Family.canonical := by
  induction later generalizing b before done with
  | nil => exact ⟨b, [], .nil, by rwa [List.append_nil], rfl⟩
  | cons family rest ih =>
      have member : family ∈ families := by
        rw [split]
        exact List.mem_append_right _ List.mem_cons_self
      have names : before.map Sketch.name = done.map Family.name := by
        have same := congrArg (List.map Family.name) finished
        rwa [List.map_map, List.map_map] at same
      have known : before.map Sketch.heading = headings done := by
        have same := congrArg headings finished
        rwa [headings, headings, List.map_map, List.map_map] at same
      have fresh : family.name ∉ before.map Sketch.name := by
        rw [names]
        intro inside
        have distinct := h.distinct
        rw [split, List.map_append, List.nodup_append] at distinct
        exact distinct.2.2 _ inside _ List.mem_cons_self rfl
      -- the kinds of later families are not known yet: fewer lines are shadowed than in the end
      have fewer : ∀ name, kindsAt before family name ≠ .unknown →
          kindsOf families name = kindsAt before family name := by
        intro name told
        have whole : headings families =
            (before.map Sketch.heading ++ [(family.name, family.kind)]) ++ headings rest := by
          rw [known, split, headings, List.map_append, List.map_cons, List.append_assoc]
          rfl
        rw [kindsOf, whole]
        exact kindIn_append_of_known told _
      obtain ⟨middle, sketch, first, shown, same⟩ := run_family shows fresh
        (h.writable family member) (h.shown family member) (h.groups family member)
        (fun sample inside => (h.told family member sample inside).mono fewer)
        fun always sample inside part held =>
          (clear always family member sample inside part held).mono fewer
      obtain ⟨last, sketches, second, settled, others⟩ := @ih _ _ (done ++ [family])
        (by rw [split, List.append_assoc]; rfl) shown
        (by rw [List.map_append, List.map_append, finished, List.map_singleton, same]; rfl)
      refine ⟨last, sketch :: sketches, ?_, ?_, ?_⟩
      · rw [List.flatMap_cons]
        exact first.append second
      · rwa [List.append_assoc] at settled
      · rw [List.map_cons, List.map_cons, same, others]

end

theorem Recoverable.run {families : List Family} {strict : Prop} (h : Recoverable families)
    (clear : strict → Unshadowed families) :
    ∃ last, Run strict .empty (Text.lines (render families).toList) last ∧
      last.finish = families.map Family.canonical := by
  obtain ⟨last, sketches, run, shows, finished⟩ :=
    run_families h clear (List.nil_append families).symm .empty rfl
  rw [lines_render h.writable]
  exact ⟨last, run, shows.finish.trans finished⟩

theorem Recoverable.families_read {families : List Family} (h : Recoverable families) :
    (read (render families)).families = .ok (families.map Family.canonical) := by
  obtain ⟨last, run, finished⟩ := @Recoverable.run _ False h False.elim
  rw [read, run.readLines_families, finished]

theorem Recoverable.read_whole {families : List Family} (h : Recoverable families)
    (clear : Unshadowed families) :
    read (render families) = ⟨.ok (families.map Family.canonical), []⟩ := by
  obtain ⟨last, run, finished⟩ := h.run fun _ : True => clear
  change (⟨(readLines 1 .empty _).families, (readLines 1 .empty _).skipped⟩ : Reading) = _
  rw [run.readLines_families, run.readLines_skipped, finished]

end ProxyMonitor.Exposition
