import ProxyMonitor.Proofs.Exposition.Drafts

/-! Sketches: families under construction as plain lists, and what an accepted line changes. -/

namespace ProxyMonitor.Exposition

/-- A family under construction, the places of its groups left out. -/
structure Sketch where
  name : String
  help : String
  kind : MetricKind
  samples : List SampleDraft

namespace Sketch

def empty (name : String) : Sketch := ⟨name, "", .unknown, []⟩

def finish (sketch : Sketch) : Family :=
  ⟨sketch.name, sketch.help, sketch.kind, sketch.samples.map (SampleDraft.finish sketch.kind)⟩

def heading (sketch : Sketch) : String × MetricKind := (sketch.name, sketch.kind)

end Sketch

def FamilyDraft.sketch (draft : FamilyDraft) : Sketch :=
  ⟨draft.name, draft.help, draft.kind, draft.samples.toList⟩

inductive Change where
  | describe (help : String)
  | declare (kind : MetricKind)
  | single (sample : Sample)
  | record (labels : Labels) (part : GroupPart) (value : Binary64)

namespace Change

def onDraft (draft : FamilyDraft) : Change → FamilyDraft
  | .describe help => { draft with help }
  | .declare kind => { draft with kind }
  | .single sample => draft.addSample sample
  | .record labels part value => draft.modifyGroup labels (·.record value part)

def onSketch (sketch : Sketch) : Change → Sketch
  | .describe help => { sketch with help }
  | .declare kind => { sketch with kind }
  | .single sample => { sketch with samples := sketch.samples ++ [.single sample] }
  | .record labels part value =>
    { sketch with
      samples := upsert SampleDraft.key? labels.pairs (.group (.empty labels))
        (.mapGroup (·.record value part)) sketch.samples }

theorem onDraft_name (change : Change) (draft : FamilyDraft) :
    (change.onDraft draft).name = draft.name := by
  cases change with
  | record labels part value => exact (draft.modifyGroup_keeps labels _).1
  | _ => rfl

theorem onSketch_name (change : Change) (sketch : Sketch) :
    (change.onSketch sketch).name = sketch.name := by
  cases change <;> rfl

theorem indexed_onDraft (change : Change) {draft : FamilyDraft} (h : draft.Indexed) :
    (change.onDraft draft).Indexed := by
  cases change with
  | describe help => exact h
  | declare kind => exact h
  | single sample => exact FamilyDraft.indexed_addSample h sample
  | record labels part value =>
      exact FamilyDraft.indexed_modifyGroup h labels fun group => group.record_labels value part

theorem sketch_onDraft (change : Change) {draft : FamilyDraft} (h : draft.Indexed) :
    (change.onDraft draft).sketch = change.onSketch draft.sketch := by
  cases change with
  | describe help => rfl
  | declare kind => rfl
  | single sample =>
      simp only [FamilyDraft.sketch, onDraft, onSketch, FamilyDraft.addSample_samples]
      rfl
  | record labels part value =>
      obtain ⟨name, help, kind⟩ := draft.modifyGroup_keeps labels (·.record value part)
      simp only [FamilyDraft.sketch, onDraft, onSketch, name, help, kind,
        FamilyDraft.modifyGroup_samples h]

end Change

/-- The kind that a list of headings gives a name; a name without a family is of unknown kind. -/
def kindIn (headings : List (String × MetricKind)) (name : String) : MetricKind :=
  (headings.lookup name).getD .unknown

theorem kindIn_cons (heading : String × MetricKind) (rest : List (String × MetricKind))
    (name : String) :
    kindIn (heading :: rest) name = if name = heading.1 then heading.2 else kindIn rest name := by
  rw [kindIn, kindIn, List.lookup_cons]
  by_cases same : name = heading.1
  · rw [if_pos same, beq_iff_eq.mpr same, Option.getD_some]
  · rw [if_neg same, beq_eq_false_iff_ne.mpr same]

theorem kindIn_append_of_known {before : List (String × MetricKind)} {name : String}
    (known : kindIn before name ≠ .unknown) (after : List (String × MetricKind)) :
    kindIn (before ++ after) name = kindIn before name := by
  rw [kindIn, kindIn, List.lookup_append]
  cases found : before.lookup name with
  | none => simp [kindIn, found] at known
  | some kind => rfl

theorem kindIn_append_of_fresh {before : List (String × MetricKind)} {name : String}
    (fresh : name ∉ before.map Prod.fst) (after : List (String × MetricKind)) :
    kindIn (before ++ after) name = kindIn after name := by
  rw [kindIn, kindIn, List.lookup_append]
  have absent : before.lookup name = none := by
    rw [List.lookup_eq_none_iff]
    intro heading member
    rw [bne_iff_ne]
    intro same
    subst same
    exact fresh (List.mem_map_of_mem member)
  rw [absent, Option.none_or]

theorem kindIn_append_unknown (before : List (String × MetricKind)) (name : String) :
    kindIn (before ++ [(name, .unknown)]) = kindIn before := by
  funext other
  induction before with
  | nil => rw [List.nil_append, kindIn_cons, ite_eq_right_iff.mpr]; exact fun _ => rfl
  | cons heading rest ih => rw [List.cons_append, kindIn_cons, kindIn_cons, ih]

theorem kindIn_of_mem {headings : List (String × MetricKind)} {name : String} {kind : MetricKind}
    (distinct : (headings.map Prod.fst).Nodup) (member : (name, kind) ∈ headings) :
    kindIn headings name = kind := by
  obtain ⟨before, after, rfl⟩ := List.append_of_mem member
  rw [List.map_append, List.nodup_append] at distinct
  have fresh : name ∉ before.map Prod.fst := fun inside =>
    distinct.2.2 name inside name List.mem_cons_self rfl
  rw [kindIn_append_of_fresh fresh, kindIn_cons, if_pos rfl]

theorem mem_of_kindIn {headings : List (String × MetricKind)} {name : String}
    (known : kindIn headings name ≠ .unknown) : (name, kindIn headings name) ∈ headings := by
  induction headings with
  | nil => exact absurd rfl known
  | cons heading rest ih =>
      rw [kindIn_cons] at known ⊢
      split at known
      next same =>
        rw [if_pos same, same]
        exact List.mem_cons_self
      next other =>
        rw [if_neg other]
        exact List.mem_cons_of_mem _ (ih known)

/-- The sketch with its name after a change, at its place or at the end. -/
def revise (name : String) (change : Change) (sketches : List Sketch) : List Sketch :=
  upsert (fun sketch => some sketch.name) name (.empty name) change.onSketch sketches

theorem revise_cons (name : String) (change : Change) (sketch : Sketch) (rest : List Sketch) :
    revise name change (sketch :: rest) =
      if sketch.name = name then change.onSketch sketch :: rest
      else sketch :: revise name change rest := by
  rw [revise, upsert]
  by_cases same : sketch.name = name
  · rw [if_pos same, if_pos (by rw [same, beq_self_eq_true])]
  · rw [if_neg same, if_neg (by simpa using same)]
    rfl

theorem mem_revise {name : String} {change : Change} {sketches : List Sketch} {sketch : Sketch}
    (member : sketch ∈ revise name change sketches) :
    sketch ∈ sketches ∨ ∃ old, (old ∈ sketches ∧ old.name = name ∨ old = .empty name) ∧
      sketch = change.onSketch old := by
  rcases mem_upsert member with old | fresh | ⟨old, inside, same, changed⟩
  · exact .inl old
  · exact .inr ⟨_, .inr rfl, fresh⟩
  · exact .inr ⟨old, .inl ⟨inside, by simpa using same⟩, changed⟩

def Change.kindAfter (kind : MetricKind) : Change → MetricKind
  | .declare declared => declared
  | _ => kind

theorem Change.onSketch_kind (change : Change) (sketch : Sketch) :
    (change.onSketch sketch).kind = change.kindAfter sketch.kind := by
  cases change <;> rfl

theorem kindIn_revise (name : String) (change : Change) (sketches : List Sketch) (other : String) :
    kindIn ((revise name change sketches).map Sketch.heading) other =
      if other = name then change.kindAfter (kindIn (sketches.map Sketch.heading) name)
      else kindIn (sketches.map Sketch.heading) other := by
  induction sketches with
  | nil =>
      rw [revise, upsert, List.map_singleton, kindIn_cons, Sketch.heading, change.onSketch_name,
        change.onSketch_kind]
      rfl
  | cons sketch rest ih =>
      rw [revise_cons, List.map_cons, kindIn_cons, kindIn_cons]
      by_cases here : sketch.name = name
      · rw [if_pos here, List.map_cons, kindIn_cons, Sketch.heading, Sketch.heading,
          change.onSketch_name, change.onSketch_kind, here]
        by_cases same : other = name <;> simp [same]
      · rw [if_neg here, List.map_cons, kindIn_cons, ih, Sketch.heading]
        by_cases same : other = name
        · simp [same, Ne.symm here]
        · simp [same]

namespace Builder

def change (b : Builder) (name : String) (change : Change) : Builder :=
  b.modifyFamily name change.onDraft

def sketches (b : Builder) : List Sketch := b.families.toList.map FamilyDraft.sketch

def kindOf (b : Builder) (name : String) : MetricKind := (b.kind? name).getD .unknown

theorem indexed_change {b : Builder} (h : b.Indexed) (name : String) (change : Change) :
    (b.change name change).Indexed :=
  indexed_modifyFamily h name change.onDraft_name fun _ => change.indexed_onDraft

/-- The builder keeps its places right and has come to these sketches. -/
structure Shows (b : Builder) (sketches : List Sketch) : Prop where
  indexed : b.Indexed
  same : b.sketches = sketches

namespace Shows

variable {b : Builder} {sketches : List Sketch}

theorem empty : Builder.empty.Shows [] := ⟨indexed_empty, rfl⟩

theorem change (h : b.Shows sketches) (name : String) (change : Change) :
    (b.change name change).Shows (revise name change sketches) := by
  constructor
  · exact indexed_change h.indexed name change
  · rw [← h.same, Builder.sketches, Builder.change, modifyFamily_families h.indexed]
    exact map_upsert (fun _ => rfl) (change.sketch_onDraft (FamilyDraft.indexed_empty name))
      fun draft member => change.sketch_onDraft (h.indexed.drafts draft member)

theorem finish (h : b.Shows sketches) : b.finish = sketches.map Sketch.finish := by
  rw [← h.same, Builder.sketches, List.map_map]
  exact List.map_congr_left fun draft _ => draft.finish_eq

theorem kindOf (h : b.Shows sketches) : b.kindOf = kindIn (sketches.map Sketch.heading) := by
  funext name
  rw [Builder.kindOf, kind_eq h.indexed, ← h.same, Builder.sketches, List.map_map]
  induction b.families.toList with
  | nil => rfl
  | cons draft rest ih =>
      rw [List.map_cons, kindIn_cons, ← ih, List.find?_cons]
      by_cases same : draft.name = name
      · rw [beq_iff_eq.mpr same]
        exact (if_pos same.symm).symm
      · rw [beq_eq_false_iff_ne.mpr same]
        exact (if_neg (Ne.symm same)).symm

theorem kindOf_change (h : b.Shows sketches) (name : String) (change : Change) (other : String) :
    (b.change name change).kindOf other =
      if other = name then change.kindAfter (b.kindOf name) else b.kindOf other := by
  rw [(h.change name change).kindOf, kindIn_revise, h.kindOf]

theorem distinct (h : b.Shows sketches) : (sketches.map Sketch.name).Nodup := by
  rw [← h.same, Builder.sketches, List.map_map]
  exact h.indexed.names_distinct

theorem groups_distinct (h : b.Shows sketches) :
    ∀ sketch ∈ sketches, (sketch.samples.filterMap SampleDraft.key?).Nodup := by
  intro sketch member
  rw [← h.same, Builder.sketches] at member
  obtain ⟨draft, inside, rfl⟩ := List.mem_map.mp member
  have distinct := (h.indexed.drafts draft inside).distinct
  rw [List.filterMap_map] at distinct
  exact distinct

end Shows

end Builder

end ProxyMonitor.Exposition
