import ProxyMonitor.Proofs.Exposition.Statements
import ProxyMonitor.Proofs.Portions

/-! The families that statements make, all at once: each family has its own statements, and each
sample the entries of one portion. Taking in one statement after the other makes the same. -/

namespace ProxyMonitor.Exposition

open scoped List

namespace Entry

def key? (entry : Entry) : Option (List (String × String)) :=
  entry.part.map fun _ => entry.labels.pairs

def bucket? (entry : Entry) : Option Bucket :=
  match entry.part with
  | some (.bucket upperBound) => some ⟨upperBound, entry.value⟩
  | _ => none

def quantile? (entry : Entry) : Option Quantile :=
  match entry.part with
  | some (.quantile level) => some ⟨level, entry.value⟩
  | _ => none

def sum? (entry : Entry) : Option Binary64 :=
  match entry.part with
  | some .sum => some entry.value
  | _ => none

def count? (entry : Entry) : Option Binary64 :=
  match entry.part with
  | some .count => some entry.value
  | _ => none

end Entry

/-- The sample that a portion makes in a family of this kind. Of several sums or counts the last
one holds; a histogram without a count has that of its last bucket. -/
def sampleOf (kind : MetricKind) (portion : Portion Entry) : Sample where
  labels := portion.first.labels
  value :=
    let sum := (portion.items.filterMap Entry.sum?).getLast?.getD .zero
    let count := (portion.items.filterMap Entry.count?).getLast?
    if portion.first.part.isNone then .single portion.first.value
    else if kind = .summary then
      .summary (portion.items.filterMap Entry.quantile?) sum (count.getD .zero)
    else
      let buckets := portion.items.filterMap Entry.bucket?
      .histogram buckets sum ((count <|> buckets.getLast?.map Bucket.cumulative).getD .zero)

def lastHelp (statements : List Statement) (name : String) : String :=
  (statements.filterMap (Statement.help? name)).getLast?.getD ""

def lastKind (statements : List Statement) (name : String) : MetricKind :=
  (statements.filterMap (Statement.kind? name)).getLast?.getD .unknown

def entries (statements : List Statement) : List Entry := statements.filterMap Statement.sample?

def entriesOf (statements : List Statement) (name : String) : List Entry :=
  (entries statements).filter (·.family = name)

/-- The entries of a family, gathered by the groups that they are parts of. -/
def portionsOf (statements : List Statement) (name : String) : List (Portion Entry) :=
  gather Entry.key? (entriesOf statements name)

def familyOf (statements : List Statement) (name : String) : Family :=
  ⟨name, lastHelp statements name, lastKind statements name,
    (portionsOf statements name).map (sampleOf (lastKind statements name))⟩

section

variable {α β : Type} (f : α → Option β) (a : α) (rest : List α)

theorem filterMap_cons_eq : (a :: rest).filterMap f = (f a).toList ++ rest.filterMap f := by
  rw [List.filterMap_cons]
  cases f a <;> rfl

theorem last_or_cons (before : Option β) :
    ((a :: rest).filterMap f).getLast?.or before =
      (rest.filterMap f).getLast?.or ((f a).or before) := by
  rw [List.filterMap_cons]
  cases f a with
  | none => rfl
  | some value =>
      simp only [List.getLast?_cons]
      cases (rest.filterMap f).getLast? <;> rfl

theorem last_getD_cons (before : β) :
    ((a :: rest).filterMap f).getLast?.getD before =
      (rest.filterMap f).getLast?.getD ((f a).getD before) := by
  rw [List.filterMap_cons]
  cases f a with
  | none => rfl
  | some value => rw [List.getLast?_cons, Option.getD_some, Option.getD_some]

end

namespace Entry

def fresh (entry : Entry) : SampleDraft :=
  match entry.part with
  | none => .single ⟨entry.labels, .single entry.value⟩
  | some _ => .group (.empty entry.labels)

def onDraft (draft : SampleDraft) (entry : Entry) : SampleDraft :=
  match entry.part with
  | none => draft
  | some part => draft.mapGroup (·.record entry.value part)

theorem key_fresh (entry : Entry) : entry.fresh.key? = entry.key? := by
  rw [fresh, key?]
  cases entry.part <;> rfl

theorem key_onDraft (draft : SampleDraft) (entry : Entry) :
    (onDraft draft entry).key? = draft.key? := by
  rw [onDraft]
  cases entry.part with
  | none => rfl
  | some part =>
      exact SampleDraft.key_mapGroup (fun group => group.record_labels entry.value part) draft

theorem samples_onSketch (sketch : Sketch) (entry : Entry) :
    entry.change.onSketch sketch =
      { sketch with
        samples := deposit key? SampleDraft.key? fresh onDraft sketch.samples entry } := by
  obtain ⟨family, labels, part, value⟩ := entry
  cases part <;> rfl

theorem onDraft_group (group : GroupDraft) (entry : Entry) :
    onDraft (.group group) entry =
      .group ⟨group.labels, group.buckets ++ entry.bucket?.toList,
        group.quantiles ++ entry.quantile?.toList, entry.sum?.or group.sum,
        entry.count?.or group.count⟩ := by
  obtain ⟨family, labels, part, value⟩ := entry
  cases part with
  | none => simp [onDraft, bucket?, quantile?, sum?, count?]
  | some part =>
      cases part <;>
        simp [onDraft, SampleDraft.mapGroup, GroupDraft.record, bucket?, quantile?, sum?, count?]

theorem foldl_onDraft (items : List Entry) (group : GroupDraft) :
    items.foldl onDraft (.group group) =
      .group ⟨group.labels, group.buckets ++ items.filterMap bucket?,
        group.quantiles ++ items.filterMap quantile?,
        (items.filterMap sum?).getLast?.or group.sum,
        (items.filterMap count?).getLast?.or group.count⟩ := by
  induction items generalizing group with
  | nil => simp
  | cons entry rest ih =>
      rw [List.foldl_cons, onDraft_group, ih, filterMap_cons_eq bucket?, filterMap_cons_eq quantile?,
        last_or_cons, last_or_cons, List.append_assoc, List.append_assoc]

theorem finish_assemble {items : List Entry} {portion : Portion Entry}
    (member : portion ∈ gather key? items) (kind : MetricKind) :
    (portion.assemble fresh onDraft).finish kind = sampleOf kind portion := by
  obtain ⟨⟨family, labels, part, value⟩, rest⟩ := portion
  cases part with
  | none =>
      obtain rfl : rest = [] := rest_of_keyless member rfl
      rfl
  | some part =>
      have made : fresh ⟨family, labels, some part, value⟩ = .group (.empty labels) := rfl
      rw [Portion.assemble, made, foldl_onDraft, SampleDraft.finish, GroupDraft.finish, sampleOf]
      simp only [GroupDraft.empty, List.nil_append, Option.or_none]
      by_cases summary : kind = .summary
      · simp [summary]
      · simp [summary]

end Entry

def sketched (statements : List Statement) : List Sketch :=
  statements.foldl (fun sketches statement => revise statement.family statement.change sketches) []

theorem foldl_onSketch {own : List Statement} {sketch : Sketch}
    (about : ∀ statement ∈ own, statement.family = sketch.name) :
    own.foldl (fun sketch statement => statement.change.onSketch sketch) sketch =
      ⟨sketch.name, (own.filterMap (Statement.help? sketch.name)).getLast?.getD sketch.help,
        (own.filterMap (Statement.kind? sketch.name)).getLast?.getD sketch.kind,
        (own.filterMap Statement.sample?).foldl
          (deposit Entry.key? SampleDraft.key? Entry.fresh Entry.onDraft) sketch.samples⟩ := by
  induction own generalizing sketch with
  | nil => rfl
  | cons statement rest ih =>
      have here := about statement List.mem_cons_self
      have later : ∀ other ∈ rest, other.family = (statement.change.onSketch sketch).name := by
        intro other member
        rw [Change.onSketch_name]
        exact about other (List.mem_cons_of_mem _ member)
      rw [List.foldl_cons, ih later, Change.onSketch_name, last_getD_cons, last_getD_cons]
      cases statement with
      | describe family help =>
          rw [Statement.help?, if_pos (show family = sketch.name from here)]
          rfl
      | declare family kind =>
          rw [Statement.kind?, if_pos (show family = sketch.name from here)]
          rfl
      | sample entry =>
          rw [Statement.change, Entry.samples_onSketch]
          rfl

section

variable (statements : List Statement) (name : String)

def ownOf : List Statement := statements.filter (some ·.family == some name)

theorem help_ownOf :
    (ownOf statements name).filterMap (Statement.help? name) =
      statements.filterMap (Statement.help? name) := by
  rw [ownOf, List.filterMap_filter]
  refine List.filterMap_congr fun statement _ => ?_
  cases statement with
  | describe family help => simp [Statement.family, Statement.help?]
  | declare | sample => simp [Statement.help?]

theorem kind_ownOf :
    (ownOf statements name).filterMap (Statement.kind? name) =
      statements.filterMap (Statement.kind? name) := by
  rw [ownOf, List.filterMap_filter]
  refine List.filterMap_congr fun statement _ => ?_
  cases statement with
  | declare family kind => simp [Statement.family, Statement.kind?]
  | describe | sample => simp [Statement.kind?]

theorem entries_ownOf : entries (ownOf statements name) = entriesOf statements name := by
  rw [entries, entriesOf, entries, ownOf, List.filterMap_filter, List.filter_filterMap]
  refine List.filterMap_congr fun statement _ => ?_
  cases statement with
  | sample entry => simp [Statement.family, Statement.sample?, Option.filter]
  | describe | declare => simp [Statement.sample?]

end

def portionsByFamily (statements : List Statement) : List (Portion Statement) :=
  gather (fun statement => some statement.family) statements

variable {statements : List Statement}

theorem items_of_family {portion : Portion Statement}
    (member : portion ∈ portionsByFamily statements) :
    portion.items = ownOf statements portion.first.family :=
  items_of_key member rfl

theorem families_eq (statements : List Statement) :
    (portionsByFamily statements).map (fun portion => portion.first.family) =
      (statements.map Statement.family).eraseDups :=
  map_name_gather Statement.family statements

theorem finish_portion {portion : Portion Statement}
    (member : portion ∈ portionsByFamily statements) :
    (portion.assemble (fun statement => Sketch.empty statement.family)
        fun sketch statement => statement.change.onSketch sketch).finish =
      familyOf statements portion.first.family := by
  have about : ∀ statement ∈ ownOf statements portion.first.family,
      statement.family = (Sketch.empty portion.first.family).name := by
    intro statement inside
    exact Option.some.inj (eq_of_beq (List.mem_filter.mp inside).2)
  rw [Portion.assemble, items_of_family member, foldl_onSketch about]
  simp only [Sketch.finish, Sketch.empty, help_ownOf, kind_ownOf]
  rw [← entries, entries_ownOf, foldl_deposit Entry.key_onDraft Entry.key_fresh, List.map_map]
  refine congrArg _ (List.map_congr_left fun group inside => ?_)
  exact Entry.finish_assemble inside _

theorem sketched_eq (statements : List Statement) :
    sketched statements =
      (portionsByFamily statements).map (Portion.assemble
        (fun statement => Sketch.empty statement.family)
        fun sketch statement => statement.change.onSketch sketch) := by
  have keeps : ∀ (sketch : Sketch) (statement : Statement),
      some (statement.change.onSketch sketch).name = some sketch.name :=
    fun sketch statement => congrArg some (statement.change.onSketch_name sketch)
  have made : ∀ statement : Statement,
      some (Sketch.empty statement.family).name = some statement.family := fun _ => rfl
  exact @foldl_deposit _ _ _ _ (fun statement => some statement.family)
    (fun sketch : Sketch => some sketch.name) _ _ _ keeps made statements

theorem finish_sketched (statements : List Statement) :
    (sketched statements).map Sketch.finish =
      (statements.map Statement.family).eraseDups.map (familyOf statements) := by
  rw [sketched_eq, List.map_map, ← families_eq, List.map_map]
  exact List.map_congr_left fun portion member => finish_portion member

theorem eq_familyOf {last : Builder} (shows : last.Shows (sketched statements)) {family : Family}
    (member : family ∈ last.finish) : family = familyOf statements family.name := by
  rw [shows.finish, finish_sketched] at member
  obtain ⟨name, -, rfl⟩ := List.mem_map.mp member
  rfl

theorem names_of_shows {last : Builder} (shows : last.Shows (sketched statements)) :
    last.finish.map Family.name = (statements.map Statement.family).eraseDups := by
  rw [shows.finish, finish_sketched, List.map_map]
  exact List.map_id _

theorem sketched_concat (before : List Statement) (statement : Statement) :
    sketched (before ++ [statement]) = revise statement.family statement.change (sketched before) :=
  List.foldl_concat ..

theorem lastKind_concat (before : List Statement) (statement : Statement) (name : String) :
    lastKind (before ++ [statement]) name =
      (statement.kind? name).getD (lastKind before name) := by
  rw [lastKind, List.filterMap_append, List.getLast?_append, lastKind, filterMap_cons_eq]
  cases statement.kind? name <;> rfl

theorem kindIn_sketched (statements : List Statement) (name : String) :
    kindIn ((sketched statements).map Sketch.heading) name = lastKind statements name := by
  induction statements using List.reverseRecOn with
  | nil => rfl
  | append_singleton before statement ih =>
      rw [sketched_concat, kindIn_revise, lastKind_concat, ih]
      by_cases same : name = statement.family
      · rw [if_pos same, ← same, ih]
        cases statement with
        | declare family kind => rw [Statement.kind?, if_pos (show family = name from same.symm)]; rfl
        | describe => rfl
        | sample entry =>
            obtain ⟨family, labels, part, value⟩ := entry
            cases part <;> rfl
      · rw [if_neg same]
        cases statement with
        | declare family kind =>
            rw [Statement.kind?, if_neg (show family ≠ name from Ne.symm same)]
            rfl
        | describe | sample => rfl

theorem flatMap_portionsOf_perm (statements : List Statement) :
    ((statements.map Statement.family).eraseDups.flatMap fun name =>
      (portionsOf statements name).flatMap Portion.items).Perm (entries statements) := by
  have own : ∀ portion ∈ portionsByFamily statements,
      entriesOf statements portion.first.family = portion.items.filterMap Statement.sample? := by
    intro portion member
    rw [items_of_family member, ← entries_ownOf, entries]
  calc
    _ ~ (statements.map Statement.family).eraseDups.flatMap (entriesOf statements) :=
      .flatMap_left _ fun name _ => flatMap_items_gather_perm _ _
    _ = (portionsByFamily statements).flatMap fun portion =>
        portion.items.filterMap Statement.sample? := by
      rw [← families_eq, List.flatMap_map]
      exact List.flatMap_congr own
    _ = ((portionsByFamily statements).flatMap Portion.items).filterMap Statement.sample? :=
      List.filterMap_flatMap.symm
    _ ~ entries statements := (flatMap_items_gather_perm _ _).filterMap _

theorem whole_of_portion {items : List Entry} {portion : Portion Entry}
    (member : portion ∈ gather Entry.key? items) :
    portion.first.part = none ∧ portion.rest = [] ∨
      portion.items = items.filter fun entry =>
        entry.part.isSome ∧ entry.labels = portion.first.labels := by
  cases part : portion.first.part with
  | none => exact .inl ⟨rfl, rest_of_keyless member (by rw [Entry.key?, part]; rfl)⟩
  | some _ =>
      right
      rw [items_of_key member (by rw [Entry.key?, part]; rfl)]
      refine List.filter_congr fun entry _ => ?_
      rw [Bool.eq_iff_iff, beq_iff_eq, decide_eq_true_iff, Entry.key?, Option.map_eq_some_iff,
        Option.isSome_iff_exists]
      constructor
      · rintro ⟨other, here, pairs⟩
        exact ⟨⟨other, here⟩, Labels.ext_pairs pairs⟩
      · rintro ⟨⟨other, here⟩, labels⟩
        exact ⟨other, here, congrArg Labels.pairs labels⟩

end ProxyMonitor.Exposition
