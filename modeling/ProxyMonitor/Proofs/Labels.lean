import ProxyMonitor.Labels

namespace ProxyMonitor

theorem insertEntry_perm {α : Type} {name : String} {value : α} {entries : List (String × α)}
    (fresh : ∀ entry ∈ entries, entry.1 ≠ name) :
    (insertEntry name value entries).Perm ((name, value) :: entries) := by
  induction entries with
  | nil => exact .refl _
  | cons entry rest ih =>
      have different : name ≠ entry.1 := (fresh entry List.mem_cons_self).symm
      simp only [insertEntry, if_neg different]
      split
      next => exact .refl _
      next =>
        have inserted := ih fun other member => fresh other (List.mem_cons_of_mem _ member)
        exact (inserted.cons entry).trans (.swap _ _ _)

theorem insertEntry_of_last {α : Type} {name : String} (value : α) {entries : List (String × α)}
    (last : ∀ entry ∈ entries, entry.1 < name) :
    insertEntry name value entries = entries ++ [(name, value)] := by
  induction entries with
  | nil => rfl
  | cons entry rest ih =>
      have before : entry.1 < name := last entry List.mem_cons_self
      have notBelow : ¬ name < entry.1 := fun less =>
        String.lt_irrefl name (String.lt_trans less before)
      have different : name ≠ entry.1 := by
        intro same
        rw [← same] at before
        exact String.lt_irrefl name before
      rw [insertEntry, if_neg notBelow, if_neg different,
        ih fun other member => last other (List.mem_cons_of_mem _ member)]
      rfl

theorem lookup_cons_eq {α : Type} (entry : String × α) (rest : List (String × α)) (name : String) :
    (entry :: rest).lookup name = if name = entry.1 then some entry.2 else rest.lookup name := by
  rw [List.lookup_cons]
  by_cases same : name = entry.1
  · rw [if_pos same, same, beq_self_eq_true]
  · rw [if_neg same, beq_eq_false_iff_ne.mpr same]

theorem lookup_insertEntry {α : Type} (name : String) (value : α) (entries : List (String × α))
    (other : String) :
    (insertEntry name value entries).lookup other =
      if other = name then some value else entries.lookup other := by
  induction entries with
  | nil => exact lookup_cons_eq (name, value) [] other
  | cons entry rest ih =>
      rw [insertEntry]
      split
      next => exact lookup_cons_eq (name, value) (entry :: rest) other
      next =>
        split
        next here =>
          rw [lookup_cons_eq, lookup_cons_eq, ← here]
          by_cases same : other = name
          · rw [if_pos same, if_pos same]
          · rw [if_neg same, if_neg same, if_neg same]
        next apart =>
          rw [lookup_cons_eq, lookup_cons_eq, ih]
          by_cases same : other = entry.1
          · rw [if_pos same, if_neg (same ▸ Ne.symm apart), if_pos same]
          · rw [if_neg same, if_neg same]

namespace Labels

/-- Two maps with the same entries are equal. -/
theorem eq_of_perm {first second : Labels} (h : first.pairs.Perm second.pairs) : first = second := by
  refine ext_pairs (h.eq_of_pairwise (fun a b _ _ less greater => ?_) first.ascending
    second.ascending)
  exact absurd (String.lt_trans less greater) (String.lt_irrefl a.1)

theorem distinct (labels : Labels) : (labels.pairs.map Prod.fst).Nodup := by
  refine List.Pairwise.map _ (fun a b less same => ?_) labels.ascending
  rw [same] at less
  exact String.lt_irrefl _ less

theorem contains_iff {labels : Labels} {name : String} :
    labels.contains name = true ↔ ∃ entry ∈ labels.pairs, entry.1 = name := by
  simp only [contains, get?, List.lookup_isSome_iff, beq_iff_eq]
  exact exists_congr fun entry => and_congr_right fun _ => eq_comm

theorem insert_perm {labels : Labels} {name value : String} (fresh : labels.contains name = false) :
    (labels.insert name value).pairs.Perm ((name, value) :: labels.pairs) := by
  apply insertEntry_perm
  intro entry member same
  have held := contains_iff.mpr ⟨entry, member, same⟩
  rw [fresh] at held
  cases held

theorem contains_of_perm {labels : Labels} {entries : List (String × String)} {name : String}
    (h : labels.pairs.Perm entries) :
    labels.contains name = true ↔ ∃ entry ∈ entries, entry.1 = name := by
  rw [contains_iff]
  exact exists_congr fun entry => and_congr_left' h.mem_iff

theorem contains_insert {labels : Labels} {name other : String} (fresh : labels.contains name = false)
    (different : other ≠ name) (value : String) :
    (labels.insert name value).contains other = labels.contains other := by
  rw [Bool.eq_iff_iff, contains_of_perm (insert_perm fresh), contains_iff]
  simp [different.symm]

theorem get?_of_mem {labels : Labels} {name value : String} (member : (name, value) ∈ labels.pairs) :
    labels.get? name = some value := by
  obtain ⟨before, after, split⟩ := List.append_of_mem member
  have distinct := labels.distinct
  rw [split, List.map_append, List.nodup_append] at distinct
  have absent : before.lookup name = none := by
    rw [List.lookup_eq_none_iff]
    intro entry inside
    rw [bne_iff_ne]
    intro same
    subst same
    exact distinct.2.2 _ (List.mem_map_of_mem inside) _ List.mem_cons_self rfl
  rw [get?, split, List.lookup_append, absent, List.lookup_cons_self]
  rfl

theorem get?_eq_none {labels : Labels} {name : String} (absent : labels.contains name = false) :
    labels.get? name = none := by
  rw [contains, Option.isSome_eq_false_iff, Option.isNone_iff_eq_none] at absent
  exact absent

theorem erase_of_absent {labels : Labels} {name : String} (absent : labels.contains name = false) :
    labels.erase name = labels := by
  apply ext_pairs
  rw [erase, List.filter_eq_self]
  intro entry member
  rw [decide_eq_true_iff]
  intro same
  rw [contains_iff.mpr ⟨entry, member, same⟩] at absent
  cases absent

theorem erase_insert {labels : Labels} {name value : String}
    (absent : labels.contains name = false) : (labels.insert name value).erase name = labels := by
  apply eq_of_perm
  have kept := (@insert_perm labels name value absent).filter fun entry => entry.1 ≠ name
  rw [List.filter_cons_of_neg (by simp)] at kept
  have same := congrArg Labels.pairs (erase_of_absent absent)
  exact kept.trans (.of_eq same)

theorem contains_erase {labels : Labels} (name other : String) :
    (labels.erase name).contains other = true ↔ labels.contains other = true ∧ other ≠ name := by
  rw [contains_iff, contains_iff]
  constructor
  · intro given
    rcases given with ⟨entry, member, rfl⟩
    obtain ⟨inside, different⟩ := List.mem_filter.mp member
    exact ⟨⟨entry, inside, rfl⟩, by simpa using different⟩
  · intro given
    rcases given with ⟨⟨entry, inside, rfl⟩, different⟩
    exact ⟨entry, List.mem_filter.mpr ⟨inside, by simpa using different⟩, rfl⟩

end Labels

end ProxyMonitor
