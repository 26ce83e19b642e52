import ProxyMonitor.Exposition.Draft
import ProxyMonitor.Proofs.KeyedList

/-! Drafts seen as lists: the places that are looked up are those of the names and the labels. -/

namespace ProxyMonitor.Exposition

namespace SampleDraft

def key? : SampleDraft → Option (List (String × String))
  | single _ => none
  | group g => some g.labels.pairs

def mapGroup (f : GroupDraft → GroupDraft) : SampleDraft → SampleDraft
  | group g => group (f g)
  | single sample => single sample

def finish (kind : MetricKind) : SampleDraft → Sample
  | single sample => sample
  | group g => g.finish kind

theorem key_mapGroup {f : GroupDraft → GroupDraft} (keeps : ∀ g, (f g).labels = g.labels)
    (draft : SampleDraft) : (draft.mapGroup f).key? = draft.key? := by
  cases draft with
  | single sample => rfl
  | group g => exact congrArg (fun labels => some labels.pairs) (keeps g)

end SampleDraft

@[simp] theorem GroupDraft.record_labels (group : GroupDraft) (value : Binary64) (part : GroupPart) :
    (group.record value part).labels = group.labels := by
  cases part <;> rfl

namespace FamilyDraft

/-- Each group stands at the place that its labels lead to, and nowhere else. -/
def Indexed (draft : FamilyDraft) : Prop :=
  Indexes draft.groups (draft.samples.toList.map SampleDraft.key?)

theorem indexed_empty (name : String) : (empty name).Indexed := Indexes.empty

theorem finish_eq (draft : FamilyDraft) :
    draft.finish =
      ⟨draft.name, draft.help, draft.kind,
        draft.samples.toList.map (SampleDraft.finish draft.kind)⟩ := by
  rw [finish]
  congr

theorem indexed_addSample {draft : FamilyDraft} (h : draft.Indexed) (sample : Sample) :
    (draft.addSample sample).Indexed := by
  rw [Indexed, addSample, Array.toList_push, List.map_append]
  exact h.push_none

theorem addSample_samples (draft : FamilyDraft) (sample : Sample) :
    (draft.addSample sample).samples.toList = draft.samples.toList ++ [.single sample] :=
  Array.toList_push

theorem modifyGroup_of_place {draft : FamilyDraft} {labels : Labels} {place : Nat}
    (found : draft.groups[labels.pairs]? = some place) (f : GroupDraft → GroupDraft) :
    draft.modifyGroup labels f =
      { draft with samples := draft.samples.modify place (.mapGroup f) } := by
  simp only [modifyGroup, ensureGroup, found]
  congr

theorem modifyGroup_of_absent {draft : FamilyDraft} {labels : Labels}
    (absent : draft.groups[labels.pairs]? = none) (f : GroupDraft → GroupDraft) :
    draft.modifyGroup labels f =
      { draft with
        samples := draft.samples.push (.group (f (.empty labels)))
        groups := draft.groups.insert labels.pairs draft.samples.size } := by
  simp only [modifyGroup, ensureGroup, absent, modify_push]

theorem modifyGroup_keeps (draft : FamilyDraft) (labels : Labels) (f : GroupDraft → GroupDraft) :
    (draft.modifyGroup labels f).name = draft.name ∧ (draft.modifyGroup labels f).help = draft.help ∧
      (draft.modifyGroup labels f).kind = draft.kind := by
  cases found : draft.groups[labels.pairs]? with
  | some place => rw [modifyGroup_of_place found]; exact ⟨rfl, rfl, rfl⟩
  | none => rw [modifyGroup_of_absent found]; exact ⟨rfl, rfl, rfl⟩

theorem modifyGroup_samples {draft : FamilyDraft} (h : draft.Indexed) (labels : Labels)
    (f : GroupDraft → GroupDraft) :
    (draft.modifyGroup labels f).samples.toList =
      upsert SampleDraft.key? labels.pairs (.group (.empty labels)) (.mapGroup f)
        draft.samples.toList := by
  have place := h.place labels.pairs
  rw [List.findIdx?_map] at place
  cases found : draft.groups[labels.pairs]? with
  | some there =>
      rw [found] at place
      rw [modifyGroup_of_place found, Array.toList_modify, upsert_of_place place.symm]
  | none =>
      rw [found] at place
      rw [modifyGroup_of_absent found, Array.toList_push, upsert_of_absent place.symm]
      rfl

theorem indexed_modifyGroup {draft : FamilyDraft} (h : draft.Indexed) (labels : Labels)
    {f : GroupDraft → GroupDraft} (keeps : ∀ g, (f g).labels = g.labels) :
    (draft.modifyGroup labels f).Indexed := by
  cases found : draft.groups[labels.pairs]? with
  | some there =>
      rw [modifyGroup_of_place found, Indexed, Array.toList_modify,
        map_key_modify (SampleDraft.key_mapGroup keeps)]
      exact h
  | none =>
      have pushed := h.push_some found
      rw [List.length_map, Array.length_toList] at pushed
      rw [modifyGroup_of_absent found, Indexed, Array.toList_push, List.map_append]
      simpa [SampleDraft.key?, keeps, GroupDraft.empty] using pushed

end FamilyDraft

namespace Builder

/-- Each family stands at the place that its name leads to, and nowhere else. -/
structure Indexed (b : Builder) : Prop where
  names : Indexes b.index (b.families.toList.map fun draft => some draft.name)
  drafts : ∀ draft ∈ b.families.toList, draft.Indexed

theorem indexed_empty : Builder.empty.Indexed := ⟨Indexes.empty, by simp [empty]⟩

theorem Indexed.names_distinct {b : Builder} (h : b.Indexed) :
    (b.families.toList.map FamilyDraft.name).Nodup := by
  have distinct := h.names.distinct
  rw [List.filterMap_map] at distinct
  rw [← List.filterMap_eq_map]
  exact distinct

theorem modifyFamily_of_place {b : Builder} {name : String} {place : Nat}
    (found : b.index[name]? = some place) (f : FamilyDraft → FamilyDraft) :
    b.modifyFamily name f = { b with families := b.families.modify place f } := by
  simp only [modifyFamily, ensureFamily, found]

theorem modifyFamily_of_absent {b : Builder} {name : String} (absent : b.index[name]? = none)
    (f : FamilyDraft → FamilyDraft) :
    b.modifyFamily name f =
      ⟨b.families.push (f (.empty name)), b.index.insert name b.families.size⟩ := by
  simp only [modifyFamily, ensureFamily, absent, modify_push]

theorem modifyFamily_families {b : Builder} (h : b.Indexed) (name : String)
    (f : FamilyDraft → FamilyDraft) :
    (b.modifyFamily name f).families.toList =
      upsert (fun draft => some draft.name) name (.empty name) f b.families.toList := by
  have place := h.names.place name
  rw [List.findIdx?_map] at place
  cases found : b.index[name]? with
  | some there =>
      rw [found] at place
      rw [modifyFamily_of_place found, Array.toList_modify, upsert_of_place place.symm]
  | none =>
      rw [found] at place
      rw [modifyFamily_of_absent found, Array.toList_push, upsert_of_absent place.symm]

theorem indexed_modifyFamily {b : Builder} (h : b.Indexed) (name : String)
    {f : FamilyDraft → FamilyDraft} (keeps : ∀ draft, (f draft).name = draft.name)
    (stays : ∀ draft : FamilyDraft, draft.Indexed → (f draft).Indexed) :
    (b.modifyFamily name f).Indexed := by
  constructor
  · cases found : b.index[name]? with
    | some there =>
        have same : ∀ draft : FamilyDraft, some (f draft).name = some draft.name :=
          fun draft => congrArg some (keeps draft)
        rw [modifyFamily_of_place found, Array.toList_modify, map_key_modify same]
        exact h.names
    | none =>
        have pushed := h.names.push_some found
        rw [List.length_map, Array.length_toList] at pushed
        rw [modifyFamily_of_absent found, Array.toList_push, List.map_append]
        simpa [keeps, FamilyDraft.empty] using pushed
  · intro draft member
    rw [modifyFamily_families h] at member
    rcases mem_upsert member with old | rfl | ⟨old, inside, -, rfl⟩
    · exact h.drafts draft old
    · exact stays _ (FamilyDraft.indexed_empty name)
    · exact stays old (h.drafts old inside)

theorem kind_eq {b : Builder} (h : b.Indexed) (name : String) :
    b.kind? name = (b.families.toList.find? (·.name == name)).map FamilyDraft.kind := by
  have place := h.names.place name
  rw [List.findIdx?_map] at place
  have found : (b.index[name]?.bind fun place => b.families[place]?) =
      b.families.toList.find? (·.name == name) := by
    rw [place]
    simp only [← Array.getElem?_toList]
    exact findIdx?_bind_getElem? _ _
  rw [kind?, found]

end Builder

end ProxyMonitor.Exposition
