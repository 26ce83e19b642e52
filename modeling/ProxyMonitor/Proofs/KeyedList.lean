import Std.Data.HashMap.Lemmas

/-! Lists whose entries have keys, with a map from each key to its place. -/

namespace ProxyMonitor

variable {α κ : Type}

/-- Changes the first entry with the key; without one, a new entry is put at the end and changed. -/
def upsert [BEq κ] (key : α → Option κ) (k : κ) (new : α) (f : α → α) : List α → List α
  | [] => [f new]
  | a :: rest => if key a == some k then f a :: rest else a :: upsert key k new f rest

section

variable [BEq κ] {key : α → Option κ} {k : κ} {new : α} {f : α → α}

theorem upsert_of_absent {l : List α} (absent : l.findIdx? (key · == some k) = none) :
    upsert key k new f l = l ++ [f new] := by
  induction l with
  | nil => rfl
  | cons a rest ih =>
      rw [List.findIdx?_cons] at absent
      split at absent
      · cases absent
      · rename_i other
        rw [upsert, if_neg other, ih (by simpa using absent), List.cons_append]

theorem upsert_of_place {l : List α} {place : Nat}
    (found : l.findIdx? (key · == some k) = some place) :
    upsert key k new f l = l.modify place f := by
  induction l generalizing place with
  | nil => cases found
  | cons a rest ih =>
      rw [List.findIdx?_cons] at found
      split at found
      · rename_i here
        cases found
        rw [upsert, if_pos here, List.modify_zero_cons]
      · rename_i other
        obtain ⟨later, there, rfl⟩ := Option.map_eq_some_iff.mp found
        rw [upsert, if_neg other, ih there, List.modify_succ_cons]

theorem upsert_append {before : List α} {last : Option α}
    (absent : ∀ a ∈ before, (key a == some k) = false)
    (held : ∀ a ∈ last, (key a == some k) = true) :
    upsert key k new f (before ++ last.toList) = before ++ [f (last.getD new)] := by
  induction before with
  | nil =>
      cases last with
      | none => rfl
      | some a => simp [upsert, held a rfl]
  | cons a rest ih =>
      rw [List.cons_append, upsert, if_neg (by simp [absent a List.mem_cons_self]),
        ih fun b member => absent b (List.mem_cons_of_mem _ member), List.cons_append]

theorem mem_upsert {l : List α} {a : α} (member : a ∈ upsert key k new f l) :
    a ∈ l ∨ a = f new ∨ ∃ old ∈ l, (key old == some k) = true ∧ a = f old := by
  induction l with
  | nil => exact .inr (.inl (by simpa [upsert] using member))
  | cons first rest ih =>
      rw [upsert] at member
      split at member
      next here =>
        rcases List.mem_cons.mp member with rfl | member
        · exact .inr (.inr ⟨first, List.mem_cons_self, here, rfl⟩)
        · exact .inl (List.mem_cons_of_mem _ member)
      next =>
        rcases List.mem_cons.mp member with rfl | member
        · exact .inl List.mem_cons_self
        · rcases ih member with old | fresh | ⟨old, inside, changed⟩
          · exact .inl (List.mem_cons_of_mem _ old)
          · exact .inr (.inl fresh)
          · exact .inr (.inr ⟨old, List.mem_cons_of_mem _ inside, changed⟩)

end

theorem map_upsert {β : Type} [BEq κ] {key : α → Option κ} {image : α → β} {outer : β → Option κ}
    {k : κ} {new : α} {f : α → α} {g : β → β} {l : List α}
    (keys : ∀ a, outer (image a) = key a) (fresh : image (f new) = g (image new))
    (agree : ∀ a ∈ l, image (f a) = g (image a)) :
    (upsert key k new f l).map image = upsert outer k (image new) g (l.map image) := by
  induction l with
  | nil => simp [upsert, fresh]
  | cons a rest ih =>
      have later := ih fun b member => agree b (List.mem_cons_of_mem _ member)
      rw [List.map_cons, upsert, upsert, keys]
      split
      · rw [List.map_cons, agree a List.mem_cons_self]
      · rw [List.map_cons, later]

theorem map_key_modify {key : α → Option κ} {f : α → α} (keeps : ∀ a, key (f a) = key a)
    (l : List α) (place : Nat) : (l.modify place f).map key = l.map key := by
  induction l generalizing place with
  | nil => simp
  | cons a rest ih =>
      cases place with
      | zero => simp [keeps]
      | succ place => simp [ih]

theorem findIdx?_bind_getElem? (p : α → Bool) (l : List α) :
    ((l.findIdx? p).bind fun place => l[place]?) = l.find? p := by
  induction l with
  | nil => rfl
  | cons a rest ih =>
      rw [List.findIdx?_cons, List.find?_cons]
      cases p a with
      | true => rfl
      | false =>
          rw [← ih, if_neg Bool.false_ne_true, Option.bind_map]
          rfl

theorem modify_push (entries : Array α) (new : α) (f : α → α) :
    (entries.push new).modify entries.size f = entries.push (f new) := by
  have appended : ∀ l : List α, (l ++ [new]).modify l.length f = l ++ [f new] := by
    intro l
    induction l with
    | nil => rfl
    | cons a rest ih => simp [ih]
  apply Array.ext'
  rw [Array.toList_modify, Array.toList_push, Array.toList_push, ← Array.length_toList, appended]

theorem modify_of_getElem? {entries : Array α} {place : Nat} {a : α}
    (here : entries[place]? = some a) (f : α → α) :
    entries.modify place f = entries.setIfInBounds place (f a) := by
  apply Array.ext_getElem?
  intro other
  rw [Array.getElem?_modify, Array.getElem?_setIfInBounds]
  split
  next same =>
    obtain ⟨bound, -⟩ := Array.getElem?_eq_some_iff.mp here
    rw [← same, here, if_pos bound, Option.map_some]
  next => rfl

/-- The map gives the place of every key, and no key stands twice. -/
structure Indexes [BEq κ] [Hashable κ] (index : Std.HashMap κ Nat) (keys : List (Option κ)) :
    Prop where
  distinct : (keys.filterMap id).Nodup
  place : ∀ k, index[k]? = keys.findIdx? (· == some k)

namespace Indexes

variable [BEq κ] [Hashable κ] {index : Std.HashMap κ Nat} {keys : List (Option κ)}

theorem empty : Indexes (∅ : Std.HashMap κ Nat) [] :=
  ⟨List.nodup_nil, fun _ => Std.HashMap.getElem?_empty⟩

theorem push_none (h : Indexes index keys) : Indexes index (keys ++ [none]) := by
  refine ⟨by simpa [List.filterMap_append] using h.distinct, fun k => ?_⟩
  rw [h.place, List.findIdx?_append]
  simp

theorem push_some [LawfulBEq κ] (h : Indexes index keys) {k : κ} (absent : index[k]? = none) :
    Indexes (index.insert k keys.length) (keys ++ [some k]) := by
  have fresh : some k ∉ keys := by
    intro member
    rw [h.place, List.findIdx?_eq_none_iff] at absent
    simpa using absent _ member
  constructor
  · rw [List.filterMap_append, List.nodup_append]
    refine ⟨h.distinct, by simp, fun a inside b last same => ?_⟩
    obtain rfl : b = k := by simpa using last
    obtain ⟨entry, member, rfl⟩ := List.mem_filterMap.mp inside
    subst same
    exact fresh member
  · intro other
    rw [Std.HashMap.getElem?_insert, List.findIdx?_append, ← h.place]
    by_cases same : k = other
    · subst same
      simp [absent]
    · simp [same]

theorem unique (h : Indexes index keys) {k : κ} {first second : Nat}
    (here : keys[first]? = some (some k)) (there : keys[second]? = some (some k)) :
    first = second := by
  have distinct := List.pairwise_filterMap.mp h.distinct
  obtain ⟨firstBound, here⟩ := List.getElem?_eq_some_iff.mp here
  obtain ⟨secondBound, there⟩ := List.getElem?_eq_some_iff.mp there
  rw [List.pairwise_iff_getElem] at distinct
  rcases Nat.lt_trichotomy first second with before | same | after
  · exact absurd rfl (distinct first second firstBound secondBound before k here k there)
  · exact same
  · exact absurd rfl (distinct second first secondBound firstBound after k there k here)

theorem getElem?_eq_some_iff [LawfulBEq κ] (h : Indexes index keys) {k : κ} {place : Nat} :
    index[k]? = some place ↔ keys[place]? = some (some k) := by
  have stands : ∀ {there}, keys.findIdx? (· == some k) = some there →
      keys[there]? = some (some k) := by
    intro there found
    obtain ⟨bound, same, -⟩ := List.findIdx?_eq_some_iff_getElem.mp found
    rw [List.getElem?_eq_getElem bound, beq_iff_eq.mp same]
  rw [h.place]
  refine ⟨stands, fun here => ?_⟩
  cases found : keys.findIdx? (· == some k) with
  | none =>
      rw [List.findIdx?_eq_none_iff] at found
      simpa using found _ (List.mem_of_getElem? here)
  | some there => rw [h.unique (stands found) here]

end Indexes

end ProxyMonitor
