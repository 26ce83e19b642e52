import ProxyMonitor.Proofs.Exposition.Effects
import ProxyMonitor.Proofs.Exposition.RoundTrip

/-! Families that were read survive being written, if their types were declared in time. -/

namespace ProxyMonitor.Exposition

def lineSuffixes : List String := ["", "_bucket", "_sum", "_count"]

/-- Each type is declared once, and before the sample lines that it bears on. -/
def DeclaredFirst (lines : List (List Char)) : Prop :=
  lines.Pairwise fun earlier later => ∀ name ∈ declaredName? later,
    declaredName? earlier ≠ some name ∧
      ∀ suffix ∈ lineSuffixes, sampledName? earlier ≠ some (name ++ suffix)

instance (lines : List (List Char)) : Decidable (DeclaredFirst lines) :=
  inferInstanceAs (Decidable (List.Pairwise _ _))

def Declared (past : List (List Char)) (name : String) : Prop :=
  ∃ line ∈ past, declaredName? line = some name

def Sampled (past : List (List Char)) (name : String) : Prop :=
  ∃ line ∈ past, sampledName? line = some name

/-- What a line declares is new, and no earlier line hangs on it. -/
def Timely (past : List (List Char)) (line : List Char) : Prop :=
  ∀ name ∈ declaredName? line, ¬ Declared past name ∧
    ∀ suffix ∈ lineSuffixes, ¬ Sampled past (name ++ suffix)

theorem exists_suffix (part : GroupPart) (name : String) :
    ∃ suffix ∈ lineSuffixes, part.lineName name = name ++ suffix := by
  cases part with
  | bucket upperBound => exact ⟨"_bucket", by decide, rfl⟩
  | quantile level => exact ⟨"", by decide, String.append_empty.symm⟩
  | sum => exact ⟨"_sum", by decide, rfl⟩
  | count => exact ⟨"_count", by decide, rfl⟩

def draftParts (group : GroupDraft) : List GroupPart :=
  group.buckets.map (.bucket ·.upperBound) ++ group.quantiles.map (.quantile ·.quantile) ++
    group.sum.toList.map (fun _ => .sum) ++ group.count.toList.map fun _ => .count

/-- The lines behind a draft were read, and still belong where they were put. -/
inductive Sourced (past : List (List Char)) (kinds : String → MetricKind) (name : String) :
    SampleDraft → Prop where
  | single {sample : Sample} {value : Binary64} (alone : sample.value = .single value)
      (labelNames : ∀ pair ∈ sample.labels.pairs, LabelName pair.1.toList)
      (loose : Loose kinds name) (sampled : Sampled past name) :
      Sourced past kinds name (.single sample)
  | group {group : GroupDraft} (labelNames : ∀ pair ∈ group.labels.pairs, LabelName pair.1.toList)
      (plain : GroupLabels group.labels) (some : draftParts group ≠ [])
      (parts : ∀ part ∈ draftParts group, part.Fits (kinds name) ∧ part.Clear kinds name ∧
        Sampled past (part.lineName name)) :
      Sourced past kinds name (.group group)

/-- What holds of a sketch after the past lines. -/
structure Sound (past : List (List Char)) (kinds : String → MetricKind) (sketch : Sketch) :
    Prop where
  name : MetricName sketch.name.toList
  help : HelpText sketch.help.toList
  declared : sketch.kind ≠ .unknown → Declared past sketch.name
  sourced : ∀ draft ∈ sketch.samples, Sourced past kinds sketch.name draft

theorem sound_empty {past : List (List Char)} {kinds : String → MetricKind} {name : String}
    (isName : MetricName name.toList) : Sound past kinds (.empty name) where
  name := isName
  help := ⟨by simp [Sketch.empty], by simp [Sketch.empty]⟩
  declared := fun known => absurd rfl known
  sourced := by simp [Sketch.empty]

theorem mem_draftParts_record {group : GroupDraft} {value : Binary64} {part other : GroupPart}
    (member : other ∈ draftParts (group.record value part)) :
    other ∈ draftParts group ∨ other = part := by
  cases part <;> simp only [draftParts, GroupDraft.record, List.mem_append, List.map_append,
    List.map_singleton, List.mem_singleton, Option.toList_some] at member ⊢ <;> tauto

theorem draftParts_record_ne_nil (group : GroupDraft) (value : Binary64) (part : GroupPart) :
    draftParts (group.record value part) ≠ [] := by
  cases part <;> simp [draftParts, GroupDraft.record]

section

variable {past : List (List Char)} {line : List Char} {kinds changed : String → MetricKind}
  {name : String}

theorem Sampled.later (h : Sampled past name) : Sampled (line :: past) name := by
  obtain ⟨earlier, member, sampled⟩ := h
  exact ⟨earlier, List.mem_cons_of_mem _ member, sampled⟩

theorem Declared.later (h : Declared past name) : Declared (line :: past) name := by
  obtain ⟨earlier, member, declared⟩ := h
  exact ⟨earlier, List.mem_cons_of_mem _ member, declared⟩

theorem Sourced.later {draft : SampleDraft} (h : Sourced past kinds name draft) :
    Sourced (line :: past) kinds name draft := by
  cases h with
  | single alone labelNames loose sampled => exact .single alone labelNames loose sampled.later
  | group labelNames plain some parts =>
      refine .group labelNames plain some fun part member => ?_
      obtain ⟨fits, clear, sampled⟩ := parts part member
      exact ⟨fits, clear, sampled.later⟩

theorem Sound.later {sketch : Sketch} (h : Sound past kinds sketch) :
    Sound (line :: past) kinds sketch :=
  ⟨h.name, h.help, fun known => (h.declared known).later, fun draft member =>
    (h.sourced draft member).later⟩

theorem Sourced.redeclare {declared : String} {draft : SampleDraft}
    (h : Sourced past kinds name draft) (unknown : kinds declared = .unknown)
    (others : ∀ other, other ≠ declared → changed other = kinds other)
    (free : ∀ suffix ∈ lineSuffixes, ¬ Sampled past (declared ++ suffix)) :
    Sourced past changed name draft := by
  have unsampled : ∀ part : GroupPart, ¬ Sampled past (part.lineName declared) := by
    intro part
    obtain ⟨suffix, listed, spelled⟩ := exists_suffix part declared
    rw [spelled]
    exact free suffix listed
  cases h with
  | single alone labelNames loose sampled =>
      refine .single alone labelNames (fun base part spelled fits => ?_) sampled
      by_cases same : base = declared
      · rw [same] at spelled
        exact unsampled part (spelled ▸ sampled)
      · rw [others base same] at fits
        exact loose base part spelled fits
  | group labelNames plain some parts =>
      refine .group labelNames plain some fun part member => ?_
      obtain ⟨fits, clear, sampled⟩ := parts part member
      have apart : name ≠ declared := by
        intro same
        subst same
        rw [unknown] at fits
        rcases fits.known with kind | kind <;> cases kind
      have line : part.lineName name ≠ declared := by
        intro same
        rw [same] at sampled
        exact unsampled (.quantile .zero) sampled
      exact ⟨(others name apart).symm ▸ fits, clear.imp ((others _ line).symm.trans ·), sampled⟩

theorem Sound.redeclare {declared : String} {sketch : Sketch} (h : Sound past kinds sketch)
    (unknown : kinds declared = .unknown)
    (others : ∀ other, other ≠ declared → changed other = kinds other)
    (free : ∀ suffix ∈ lineSuffixes, ¬ Sampled past (declared ++ suffix)) :
    Sound past changed sketch :=
  ⟨h.name, h.help, h.declared, fun draft member =>
    (h.sourced draft member).redeclare unknown others free⟩

theorem Sourced.record {labels : Labels} {part : GroupPart} {value : Binary64}
    {samples : List SampleDraft} (h : ∀ draft ∈ samples, Sourced past kinds name draft)
    (labelNames : ∀ pair ∈ labels.pairs, LabelName pair.1.toList) (plain : GroupLabels labels)
    (fits : part.Fits (kinds name)) (clear : part.Clear kinds name)
    (sampled : Sampled past (part.lineName name)) :
    ∀ draft ∈ upsert SampleDraft.key? labels.pairs (.group (.empty labels))
      (.mapGroup (·.record value part)) samples, Sourced past kinds name draft := by
  intro draft member
  rcases mem_upsert member with old | rfl | ⟨old, inside, key, rfl⟩
  · exact h draft old
  · have keeps := (GroupDraft.empty labels).record_labels value part
    refine .group (keeps.symm ▸ labelNames) (keeps.symm ▸ plain)
      (draftParts_record_ne_nil _ value part) fun other held => ?_
    rcases mem_draftParts_record held with before | rfl
    · cases before
    · exact ⟨fits, clear, sampled⟩
  · have sourced := h old inside
    cases sourced with
    | single => cases key
    | @group group ownNames ownPlain some parts =>
        have keeps := group.record_labels value part
        refine .group (keeps.symm ▸ ownNames) (keeps.symm ▸ ownPlain)
          (draftParts_record_ne_nil group value part) fun other held => ?_
        rcases mem_draftParts_record held with before | rfl
        · exact parts other before
        · exact ⟨fits, clear, sampled⟩

end

theorem groupLabels_erase (labels : Labels) :
    GroupLabels ((labels.erase "le").erase "quantile") := by
  constructor
  · rw [Bool.eq_false_iff, Ne, Labels.contains_erase, Labels.contains_erase]
    exact fun held => held.1.2 rfl
  · rw [Bool.eq_false_iff, Ne, Labels.contains_erase]
    exact fun held => held.2 rfl

/-- All that a builder shows goes back to past lines. -/
structure Accounted (past : List (List Char)) (b : Builder) (sketches : List Sketch) : Prop where
  shows : b.Shows sketches
  sound : ∀ sketch ∈ sketches, Sound past b.kindOf sketch

section

variable {past : List (List Char)} {line : List Char} {b b' : Builder} {sketches : List Sketch}

theorem accounted_empty : Accounted [] .empty [] := ⟨.empty, by simp⟩

theorem Accounted.later (h : Accounted past b sketches) : Accounted (line :: past) b sketches :=
  ⟨h.shows, fun sketch member => (h.sound sketch member).later⟩

theorem Accounted.change {further : List (List Char)} (h : Accounted past b sketches)
    {name : String} (isName : MetricName name.toList) (change : Change)
    (kept : ∀ sketch, Sound past b.kindOf sketch →
      Sound further (b.change name change).kindOf sketch)
    (revised : ∀ sketch, sketch.name = name → Sound past b.kindOf sketch →
      Sound further (b.change name change).kindOf (change.onSketch sketch)) :
    Accounted further (b.change name change) (revise name change sketches) := by
  refine ⟨h.shows.change name change, fun sketch member => ?_⟩
  rcases mem_revise member with old | ⟨old, ⟨inside, same⟩ | rfl, rfl⟩
  · exact kept sketch (h.sound sketch old)
  · exact revised old same (h.sound old inside)
  · exact revised _ rfl (sound_empty isName)

theorem Accounted.kindOf_change (h : Accounted past b sketches) (name : String) (change : Change)
    (keeps : ∀ kind, change.kindAfter kind = kind) : (b.change name change).kindOf = b.kindOf := by
  funext other
  rw [h.shows.kindOf_change, keeps]
  split
  next same => rw [same]
  next => rfl

theorem Accounted.exists_sketch (h : Accounted past b sketches) {name : String}
    (known : b.kindOf name ≠ .unknown) :
    ∃ sketch ∈ sketches, sketch.name = name ∧ sketch.kind ≠ .unknown := by
  rw [h.shows.kindOf] at known
  obtain ⟨sketch, member, same⟩ := List.mem_map.mp (mem_of_kindIn known)
  obtain ⟨sameName, sameKind⟩ := Prod.mk.inj same
  exact ⟨sketch, member, sameName, sameKind ▸ known⟩

theorem Accounted.unknown (h : Accounted past b sketches) {name : String}
    (undeclared : ¬ Declared past name) : b.kindOf name = .unknown := by
  by_contra known
  obtain ⟨sketch, member, rfl, kind⟩ := h.exists_sketch known
  exact undeclared ((h.sound sketch member).declared kind)

theorem Accounted.step (h : Accounted past b sketches) (effect : Effect b line b')
    (timely : Timely past line) : ∃ later, Accounted (line :: past) b' later := by
  cases effect with
  | nothing => exact ⟨sketches, h.later⟩
  | @describe name help _ isName trimmed =>
      have kinds := h.kindOf_change name (.describe help) fun _ => rfl
      refine ⟨_, h.change isName (.describe help) ?_ ?_⟩
      · intro sketch sound
        rw [kinds]
        exact sound.later
      · intro sketch _ sound
        rw [kinds]
        exact { sound.later with help := trimmed }
  | @declare name kind declares isName =>
      -- the kind was unknown before, so no line was put anywhere because of it
      obtain ⟨undeclared, free⟩ := timely name declares
      have unknown := h.unknown undeclared
      have others : ∀ other, other ≠ name →
          (b.change name (.declare kind)).kindOf other = b.kindOf other := by
        intro other different
        rw [h.shows.kindOf_change, if_neg different]
      refine ⟨_, h.change isName (.declare kind) ?_ ?_⟩
      · intro sketch sound
        exact (sound.redeclare unknown others free).later
      · intro sketch same sound
        exact { (sound.redeclare unknown others free).later with
          declared := fun _ => ⟨line, List.mem_cons_self, same ▸ declares⟩ }
  | @single sample _ sampled isName labelNames loose =>
      have kinds := h.kindOf_change sample.name
        (.single ⟨sample.labels, .single sample.value⟩) fun _ => rfl
      refine ⟨_, h.change isName (.single ⟨sample.labels, .single sample.value⟩) ?_ ?_⟩
      · intro sketch sound
        rw [kinds]
        exact sound.later
      · intro sketch same sound
        rw [kinds]
        refine { sound.later with sourced := fun draft member => ?_ }
        rcases List.mem_append.mp member with old | new
        · exact (sound.sourced draft old).later
        · obtain rfl := List.mem_singleton.mp new
          exact .single rfl labelNames (same ▸ loose) ⟨line, List.mem_cons_self, same ▸ sampled⟩
  | @record sample family part _ sampled labelNames fits clear =>
      have kinds := h.kindOf_change family
        (.record ((sample.labels.erase "le").erase "quantile") part sample.value) fun _ => rfl
      -- only a declared family takes parts, so it has a sketch and with it a valid name
      have known : b.kindOf family ≠ .unknown := by
        rcases fits.known with kind | kind <;> rw [kind] <;> decide
      obtain ⟨owner, held, rfl, -⟩ := h.exists_sketch known
      have isName := (h.sound owner held).name
      refine ⟨_, h.change isName
        (.record ((sample.labels.erase "le").erase "quantile") part sample.value) ?_ ?_⟩
      · intro sketch sound
        rw [kinds]
        exact sound.later
      · intro sketch same sound
        rw [kinds]
        rw [← same] at fits clear sampled
        refine { sound.later with
          sourced := Sourced.record sound.later.sourced ?_ (groupLabels_erase sample.labels) fits
            clear ⟨line, List.mem_cons_self, sampled⟩ }
        intro pair member
        exact labelNames pair (List.mem_filter.mp (List.mem_filter.mp member).1).1

theorem Timely.later {further : List Char} (h : Timely past further)
    (apart : ∀ name ∈ declaredName? further, declaredName? line ≠ some name ∧
      ∀ suffix ∈ lineSuffixes, sampledName? line ≠ some (name ++ suffix)) :
    Timely (line :: past) further := by
  intro name declares
  obtain ⟨undeclared, free⟩ := h name declares
  obtain ⟨other, unsampled⟩ := apart name declares
  constructor
  · intro given
    rcases given with ⟨earlier, member, declared⟩
    rcases List.mem_cons.mp member with rfl | member
    · exact other declared
    · exact undeclared ⟨earlier, member, declared⟩
  · intro suffix listed given
    rcases given with ⟨earlier, member, sampled⟩
    rcases List.mem_cons.mp member with rfl | member
    · exact unsampled suffix listed sampled
    · exact free suffix listed ⟨earlier, member, sampled⟩

theorem Accounted.run {lines : List (List Char)} (h : Accounted past b sketches)
    (run : Run False b lines b') (first : DeclaredFirst lines)
    (timely : ∀ line ∈ lines, Timely past line) : ∃ further later, Accounted further b' later := by
  -- the past grows by each line, skipped or not: a skipped line may be a sample as well
  induction run generalizing past sketches with
  | nil => exact ⟨past, sketches, h⟩
  | take read _ ih =>
      obtain ⟨apart, later⟩ := List.pairwise_cons.mp first
      obtain ⟨_, next⟩ := h.step (effect_of_readLine read) (timely _ List.mem_cons_self)
      exact ih next later fun other member =>
        (timely other (List.mem_cons_of_mem _ member)).later (apart other member)
  | @skip _ _ line _ _ _ _ _ _ ih =>
      obtain ⟨apart, later⟩ := List.pairwise_cons.mp first
      exact @ih (line :: past) sketches h.later later fun other member =>
        (timely other (List.mem_cons_of_mem _ member)).later (apart other member)

end

section

variable {past : List (List Char)} {kinds : String → MetricKind} {kind : MetricKind}
  {group : GroupDraft}

theorem mem_draftParts_or_implied (grouped : kind = .histogram ∨ kind = .summary) :
    ∀ part ∈ groupParts (group.finish kind).value,
      part.1 ∈ draftParts group ∨ Implied (group.finish kind).value part := by
  intro part member
  have summed : GroupPart.sum ∈ draftParts group ∨ group.sum.getD .zero = .zero := by
    cases told : group.sum <;> simp [draftParts, told]
  rcases grouped with rfl | rfl
  · rw [GroupDraft.finish, if_neg (by decide)] at member ⊢
    rcases List.mem_append.mp member with head | total
    · obtain ⟨bucket, held, rfl⟩ := List.mem_map.mp head
      left
      simp only [draftParts, List.mem_append, List.mem_map]
      exact .inl (.inl (.inl ⟨bucket, held, rfl⟩))
    · rcases List.mem_pair.mp total with rfl | rfl
      · exact summed
      · cases told : group.count with
        | none => exact .inr rfl
        | some count => exact .inl (by simp [draftParts, told])
  · rw [GroupDraft.finish, if_pos rfl] at member ⊢
    rcases List.mem_append.mp member with head | total
    · obtain ⟨quantile, held, rfl⟩ := List.mem_map.mp head
      left
      simp only [draftParts, List.mem_append, List.mem_map]
      exact .inl (.inl (.inr ⟨quantile, held, rfl⟩))
    · rcases List.mem_pair.mp total with rfl | rfl
      · exact summed
      · cases told : group.count with
        | none => exact .inr rfl
        | some count => exact .inl (by simp [draftParts, told])

theorem exists_mem_groupParts {part : GroupPart} (member : part ∈ draftParts group)
    (fits : part.Fits kind) : ∃ value, (part, value) ∈ groupParts (group.finish kind).value := by
  simp only [draftParts, List.mem_append, List.mem_map] at member
  rcases member with ((⟨bucket, held, rfl⟩ | ⟨quantile, held, rfl⟩) | ⟨_, _, rfl⟩) | ⟨_, _, rfl⟩
  · obtain rfl : kind = .histogram := fits
    exact ⟨bucket.cumulative, List.mem_append_left _ (List.mem_map.mpr ⟨bucket, held, rfl⟩)⟩
  · obtain rfl : kind = .summary := fits
    exact ⟨quantile.value, List.mem_append_left _ (List.mem_map.mpr ⟨quantile, held, rfl⟩)⟩
  · refine ⟨group.sum.getD .zero, ?_⟩
    rcases fits.known with rfl | rfl <;> exact List.mem_append_right _ List.mem_cons_self
  · rcases fits.known with rfl | rfl
    · exact ⟨_, List.mem_append_right _ (List.mem_cons_of_mem _ List.mem_cons_self)⟩
    · exact ⟨_, List.mem_append_right _ (List.mem_cons_of_mem _ List.mem_cons_self)⟩

theorem groupKind_finish (grouped : kind = .histogram ∨ kind = .summary) (group : GroupDraft) :
    groupKind? (group.finish kind).value = some kind := by
  rcases grouped with rfl | rfl <;> rfl

theorem finish_labels (kind : MetricKind) (group : GroupDraft) :
    (group.finish kind).labels = group.labels := by
  rw [GroupDraft.finish]
  split <;> rfl

theorem Sourced.key {name : String} {draft : SampleDraft} (h : Sourced past kinds name draft)
    (kind : MetricKind) : groupKey? (draft.finish kind) = draft.key? := by
  cases h with
  | single alone =>
      rw [SampleDraft.finish, groupKey?, alone]
      rfl
  | group =>
      rw [SampleDraft.finish, groupKey?, GroupDraft.finish]
      split <;> rfl

theorem Sourced.told {sketch : Sketch} {draft : SampleDraft}
    (h : Sourced past kinds sketch.name draft) (same : kinds sketch.name = sketch.kind) :
    Told kinds sketch.finish (draft.finish sketch.kind) := by
  cases h with
  | single alone labelNames loose => exact .single alone loose
  | @group group labelNames plain some parts =>
      obtain ⟨part, member⟩ := List.exists_mem_of_ne_nil _ some
      obtain ⟨fits, clear, -⟩ := parts part member
      rw [same] at fits
      obtain ⟨value, inside⟩ := exists_mem_groupParts member fits
      refine .group (groupKind_finish fits.known group) ?_ ?_ ⟨_, inside, clear⟩
      · exact (finish_labels sketch.kind group).symm ▸ plain
      · intro other held
        exact (mem_draftParts_or_implied fits.known other held).imp_left
          fun taken => (parts _ taken).2.1

theorem Sourced.labelNames {name : String} {draft : SampleDraft}
    (h : Sourced past kinds name draft) (kind : MetricKind) :
    ∀ pair ∈ (draft.finish kind).labels.pairs, LabelName pair.1.toList := by
  cases h with
  | single _ labelNames => exact labelNames
  | @group group labelNames => exact (finish_labels kind group).symm ▸ labelNames

end

theorem Accounted.recoverable {past : List (List Char)} {b : Builder} {sketches : List Sketch}
    (h : Accounted past b sketches)
    (shown : ∀ family ∈ b.finish,
      ¬ (family.kind = .unknown ∧ family.help = "" ∧ family.samples = [])) :
    Recoverable b.finish := by
  have names : (b.finish.map Family.name) = sketches.map Sketch.name := by
    rw [h.shows.finish, List.map_map]
    rfl
  have kinds : kindsOf b.finish = b.kindOf := by
    rw [h.shows.kindOf, kindsOf, headings, h.shows.finish, List.map_map]
    rfl
  have sketched : ∀ family ∈ b.finish, ∃ sketch ∈ sketches, sketch.finish = family := by
    intro family member
    rw [h.shows.finish] at member
    exact List.mem_map.mp member
  -- Each family is the end of a sketch, and what the family needs was kept for the sketch.
  constructor
  · rw [names]
    exact h.shows.distinct
  · intro family member
    obtain ⟨sketch, held, rfl⟩ := sketched family member
    have sound := h.sound sketch held
    refine ⟨sound.name, sound.help, fun sample inside => ?_⟩
    obtain ⟨draft, drafted, rfl⟩ := List.mem_map.mp inside
    exact (sound.sourced draft drafted).labelNames sketch.kind
  · intro family member unknown
    by_contra bare
    obtain ⟨noHelp, none⟩ := not_or.mp bare
    exact shown family member ⟨unknown, not_not.mp noHelp, not_not.mp none⟩
  · intro family member
    obtain ⟨sketch, held, rfl⟩ := sketched family member
    have same : sketch.finish.samples.filterMap groupKey? =
        sketch.samples.filterMap SampleDraft.key? := by
      rw [Sketch.finish, List.filterMap_map]
      exact List.filterMap_congr fun draft drafted =>
        ((h.sound sketch held).sourced draft drafted).key sketch.kind
    rw [same]
    exact h.shows.groups_distinct sketch held
  · intro family member sample inside
    obtain ⟨sketch, held, rfl⟩ := sketched family member
    obtain ⟨draft, drafted, rfl⟩ := List.mem_map.mp inside
    rw [kinds]
    refine ((h.sound sketch held).sourced draft drafted).told ?_
    rw [h.shows.kindOf]
    refine kindIn_of_mem ?_ (List.mem_map.mpr ⟨sketch, held, rfl⟩)
    rw [List.map_map]
    exact h.shows.distinct

/-- Families that were read from a text with timely declarations are the same after they are
written and read again, the sign of a NaN apart. -/
theorem read_render_read (text : String) (families : List Family)
    (first : DeclaredFirst (Text.lines text.toList)) (parsed : (read text).families = .ok families)
    (shown : ∀ family ∈ families,
      ¬ (family.kind = .unknown ∧ family.help = "" ∧ family.samples = [])) :
    (read (render families)).families = .ok (families.map Family.canonical) := by
  obtain ⟨last, run, rfl⟩ := exists_run_of_readLines parsed
  obtain ⟨_, _, accounted⟩ := accounted_empty.run run first fun line _ name _ =>
    ⟨by simp [Declared], by simp [Sampled]⟩
  exact (accounted.recoverable shown).families_read

def remainder : List Family := assorted.drop 2

def noisy : String := "junk\n" ++ render remainder

theorem read_render_read_noisy :
    DeclaredFirst (Text.lines noisy.toList) ∧
      (read noisy).families = .ok (remainder.map Family.canonical) ∧
      (∀ family ∈ remainder.map Family.canonical,
        ¬ (family.kind = .unknown ∧ family.help = "" ∧ family.samples = [])) ∧
      (read (render (remainder.map Family.canonical))).families =
        .ok ((remainder.map Family.canonical).map Family.canonical) := by
  have lossless : Lossless remainder := by
    constructor <;> decide +kernel
  have first : DeclaredFirst (Text.lines noisy.toList) := by decide +kernel
  have parsed : (read noisy).families = .ok (remainder.map Family.canonical) := by
    obtain ⟨last, run, finished⟩ := @Recoverable.run _ False lossless.recoverable False.elim
    have failed : readLine .empty "junk".toList = .error .missingValue := rfl
    have lines : Text.lines noisy.toList =
        "junk".toList :: Text.lines (render remainder).toList := by
      have ended : "junk\n".toList = "junk".toList ++ ['\n'] := by decide
      rw [noisy, String.toList_append, ended, List.append_assoc, List.singleton_append]
      exact Text.lines_append (by decide) _
    have skipped : Run False .empty ("junk".toList :: Text.lines (render remainder).toList) last :=
      .skip not_false failed rfl run
    rw [read, lines, skipped.readLines_families, finished]
  have shown : ∀ family ∈ remainder.map Family.canonical,
      ¬ (family.kind = .unknown ∧ family.help = "" ∧ family.samples = []) := by decide +kernel
  exact ⟨first, parsed, shown, read_render_read noisy _ first parsed shown⟩

end ProxyMonitor.Exposition
