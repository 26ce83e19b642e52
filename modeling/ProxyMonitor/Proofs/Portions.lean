import ProxyMonitor.Proofs.KeyedList
import Mathlib.Data.List.Basic

/-! Items gathered by their keys: an item with a key goes where the first one with that key went,
and an item without a key stands alone. -/

namespace ProxyMonitor

variable {ι α κ : Type}

/-- Items that belong together, in the order in which they came. -/
structure Portion (ι : Type) where
  first : ι
  rest : List ι

namespace Portion

def items (portion : Portion ι) : List ι := portion.first :: portion.rest

def assemble (fresh : ι → α) (apply : α → ι → α) (portion : Portion ι) : α :=
  portion.items.foldl apply (fresh portion.first)

def map (f : ι → α) (portion : Portion ι) : Portion α := ⟨f portion.first, portion.rest.map f⟩

end Portion

section

variable [BEq κ]

def kin (key other : Option κ) : Bool := key.isSome && other == key

@[simp] theorem kin_none (other : Option κ) : kin none other = false := rfl

@[simp] theorem kin_some (k : κ) (other : Option κ) : kin (some k) other = (other == some k) := rfl

def others (key : ι → Option κ) (item : ι) (items : List ι) : List ι :=
  items.filter fun other => !kin (key item) (key other)

/-- The portions of some items, each at the place of its first one. -/
def gather (key : ι → Option κ) : List ι → List (Portion ι)
  | [] => []
  | item :: rest =>
    ⟨item, rest.filter fun other => kin (key item) (key other)⟩ :: gather key (others key item rest)
termination_by items => items.length
decreasing_by exact Nat.lt_succ_of_le (List.length_filter_le _ _)

/-- The entries after one more item: it changes the first one with its key, or makes a new one. -/
def deposit (itemKey : ι → Option κ) (key : α → Option κ) (fresh : ι → α) (apply : α → ι → α)
    (entries : List α) (item : ι) : List α :=
  match itemKey item with
  | none => entries ++ [apply (fresh item) item]
  | some k => upsert key k (fresh item) (apply · item) entries

section

variable {itemKey : ι → Option κ} {key : α → Option κ} {fresh : ι → α} {apply : α → ι → α}

theorem deposit_nil (item : ι) :
    deposit itemKey key fresh apply [] item = [apply (fresh item) item] := by
  rw [deposit]
  split <;> rfl

theorem deposit_cons [LawfulBEq κ] (a : α) (entries : List α) (item : ι) :
    deposit itemKey key fresh apply (a :: entries) item =
      if kin (key a) (itemKey item) then apply a item :: entries
      else a :: deposit itemKey key fresh apply entries item := by
  rw [deposit, deposit]
  cases itemKey item with
  | none => cases key a <;> rfl
  | some k =>
      have same : kin (key a) (some k) = (key a == some k) := by
        cases key a with
        | none => rfl
        | some other => simp [eq_comm]
      rw [same]
      rfl

theorem foldl_deposit_cons [LawfulBEq κ] (keeps : ∀ a item, key (apply a item) = key a)
    (items : List ι) (a : α) (entries : List α) :
    items.foldl (deposit itemKey key fresh apply) (a :: entries) =
      (items.filter fun item => kin (key a) (itemKey item)).foldl apply a ::
        (items.filter fun item => !kin (key a) (itemKey item)).foldl
          (deposit itemKey key fresh apply) entries := by
  induction items generalizing a entries with
  | nil => rfl
  | cons item rest ih =>
      rw [List.foldl_cons, deposit_cons, List.filter_cons, List.filter_cons]
      cases kin (key a) (itemKey item) with
      | true =>
          rw [if_pos rfl, ih, keeps]
          rfl
      | false =>
          rw [if_neg Bool.false_ne_true, ih]
          rfl

theorem foldl_deposit [LawfulBEq κ] (keeps : ∀ a item, key (apply a item) = key a)
    (made : ∀ item, key (fresh item) = itemKey item) (items : List ι) :
    items.foldl (deposit itemKey key fresh apply) [] =
      (gather itemKey items).map (Portion.assemble fresh apply) := by
  induction items using gather.induct itemKey with
  | case1 => rw [gather]; rfl
  | case2 item rest ih =>
      rw [List.foldl_cons, deposit_nil, foldl_deposit_cons keeps, keeps, made, gather, List.map_cons,
        ← ih]
      rfl

end

section

variable {key : ι → Option κ} {items : List ι} {portion : Portion ι}

theorem flatMap_items_gather_perm (key : ι → Option κ) (items : List ι) :
    ((gather key items).flatMap Portion.items).Perm items := by
  induction items using gather.induct key with
  | case1 => rw [gather]; exact .refl _
  | case2 item rest ih =>
      rw [gather, List.flatMap_cons, Portion.items, List.cons_append]
      exact .cons item ((ih.append_left _).trans (List.filter_append_perm _ rest))

theorem firsts_sublist (key : ι → Option κ) (items : List ι) :
    ((gather key items).map Portion.first).Sublist items := by
  induction items using gather.induct key with
  | case1 => rw [gather]; exact .slnil
  | case2 item rest ih =>
      rw [gather, List.map_cons]
      exact (ih.trans List.filter_sublist).cons_cons item

theorem items_sublist (member : portion ∈ gather key items) : portion.items.Sublist items := by
  induction items using gather.induct key with
  | case1 => rw [gather] at member; cases member
  | case2 item rest ih =>
      rw [gather] at member
      rcases List.mem_cons.mp member with rfl | later
      · exact List.filter_sublist.cons_cons item
      · exact ((ih later).trans List.filter_sublist).cons item

theorem rest_of_keyless (member : portion ∈ gather key items) (keyless : key portion.first = none) :
    portion.rest = [] := by
  induction items using gather.induct key with
  | case1 => rw [gather] at member; cases member
  | case2 item rest ih =>
      rw [gather] at member
      rcases List.mem_cons.mp member with rfl | later
      · simp [show key item = none from keyless]
      · exact ih later

theorem items_of_key [LawfulBEq κ] {k : κ} (member : portion ∈ gather key items)
    (keyed : key portion.first = some k) : portion.items = items.filter (key · == some k) := by
  induction items using gather.induct key with
  | case1 => rw [gather] at member; cases member
  | case2 item rest ih =>
      rw [gather] at member
      rcases List.mem_cons.mp member with rfl | later
      · have here : key item = some k := keyed
        rw [List.filter_cons_of_pos (by simp [here])]
        simp only [Portion.items, here, kin_some]
      · have among : portion.first ∈ others key item rest :=
          (items_sublist later).subset List.mem_cons_self
        have stranger : kin (key item) (some k) = false := by
          simpa [keyed] using (List.mem_filter.mp among).2
        have apart : key item ≠ some k := by
          intro same
          simp [same] at stranger
        rw [ih later, others, List.filter_filter, List.filter_cons_of_neg (by simpa using apart)]
        refine List.filter_congr fun other _ => ?_
        by_cases same : key other = some k
        · simp [same, stranger]
        · simp [same]

theorem key_of_mem_items [LawfulBEq κ] {item : ι} (member : portion ∈ gather key items)
    (inside : item ∈ portion.items) : key item = key portion.first := by
  cases keyed : key portion.first with
  | none =>
      rw [Portion.items, rest_of_keyless member keyed, List.mem_singleton] at inside
      rw [inside, keyed]
  | some k =>
      rw [items_of_key member keyed] at inside
      exact eq_of_beq (List.mem_filter.mp inside).2

theorem pairwise_gather [LawfulBEq κ] (key : ι → Option κ) (items : List ι) :
    (gather key items).Pairwise fun portion later =>
      ∀ k, key portion.first = some k → key later.first ≠ some k := by
  induction items using gather.induct key with
  | case1 => rw [gather]; exact .nil
  | case2 item rest ih =>
      rw [gather]
      refine List.pairwise_cons.mpr ⟨fun later member k keyed same => ?_, ih⟩
      have among : later.first ∈ others key item rest :=
        (items_sublist member).subset List.mem_cons_self
      have stranger := (List.mem_filter.mp among).2
      rw [same, show key item = some k from keyed] at stranger
      simp at stranger

theorem place_of_key [LawfulBEq κ] {i j : Nat} {other : Portion ι} {k : κ}
    (here : (gather key items)[i]? = some portion) (there : (gather key items)[j]? = some other)
    (keyed : key portion.first = some k) (alsoKeyed : key other.first = some k) : i = j := by
  have apart := List.pairwise_iff_getElem.mp (pairwise_gather key items)
  obtain ⟨low, rfl⟩ := List.getElem?_eq_some_iff.mp here
  obtain ⟨high, rfl⟩ := List.getElem?_eq_some_iff.mp there
  rcases Nat.lt_trichotomy i j with less | same | greater
  · exact absurd alsoKeyed (apart i j low high less k keyed)
  · exact same
  · exact absurd keyed (apart j i high low greater k alsoKeyed)

theorem gather_map (f : α → ι) (key : ι → Option κ) (items : List α) :
    gather key (items.map f) =
      (gather (fun item => key (f item)) items).map (Portion.map f) := by
  induction items using gather.induct (fun item => key (f item)) with
  | case1 => rw [List.map_nil, gather, gather]; rfl
  | case2 item rest ih =>
      have apart : others key (f item) (rest.map f) =
          (others (fun item => key (f item)) item rest).map f := by
        rw [others, List.filter_map]
        rfl
      rw [List.map_cons, gather, apart, ih, gather, List.map_cons, List.filter_map]
      rfl

theorem map_name_gather (name : ι → κ) (items : List ι) :
    (gather (fun item => some (name item)) items).map (fun portion => name portion.first) =
      (items.map name).eraseDups := by
  induction items using gather.induct (fun item => some (name item)) with
  | case1 => rw [gather]; rfl
  | case2 item rest ih =>
      rw [gather, List.map_cons, ih, List.map_cons, List.eraseDups_cons, List.filter_map, others]
      simp [Function.comp_def]

end

end

end ProxyMonitor
