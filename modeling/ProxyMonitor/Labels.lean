namespace ProxyMonitor

def Ascending {α : Type} (entries : List (String × α)) : Prop :=
  entries.Pairwise fun a b => a.1 < b.1

def insertEntry {α : Type} (name : String) (value : α) : List (String × α) → List (String × α)
  | [] => [(name, value)]
  | entry :: rest =>
    if name < entry.1 then (name, value) :: entry :: rest
    else if name = entry.1 then (name, value) :: rest
    else entry :: insertEntry name value rest

theorem mem_insertEntry {α : Type} {name : String} {value : α} {entries : List (String × α)}
    {e : String × α} (h : e ∈ insertEntry name value entries) :
    e = (name, value) ∨ e ∈ entries := by
  induction entries with
  | nil => simpa [insertEntry] using h
  | cons entry rest ih =>
    simp only [insertEntry] at h
    split at h
    · simpa using h
    · split at h
      · rcases List.mem_cons.mp h with h | h
        · exact .inl h
        · exact .inr (List.mem_cons_of_mem _ h)
      · rcases List.mem_cons.mp h with h | h
        · exact .inr (h ▸ List.mem_cons_self)
        · exact (ih h).imp id (List.mem_cons_of_mem _)

theorem string_lt_of_not_lt_of_ne {a b : String} (notLess : ¬ a < b) (different : a ≠ b) :
    b < a := by
  rcases String.le_total a b with h | h
  · exact absurd (String.le_antisymm h (String.not_lt.mp notLess)) different
  · exact String.not_le.mp fun h' => different (String.le_antisymm h' h)

theorem ascending_insertEntry {α : Type} {name : String} {value : α}
    {entries : List (String × α)} (h : Ascending entries) :
    Ascending (insertEntry name value entries) := by
  induction entries with
  | nil => simp [Ascending, insertEntry]
  | cons entry rest ih =>
    obtain ⟨first, later⟩ := List.pairwise_cons.mp h
    simp only [insertEntry]
    split
    next less =>
      refine List.pairwise_cons.mpr ⟨fun e he => ?_, h⟩
      rcases List.mem_cons.mp he with rfl | he
      · exact less
      · exact String.lt_trans less (first e he)
    next notLess =>
      split
      next equal => exact List.pairwise_cons.mpr ⟨fun e he => equal ▸ first e he, later⟩
      next different =>
        refine List.pairwise_cons.mpr ⟨fun e he => ?_, ih later⟩
        rcases mem_insertEntry he with rfl | he
        · exact string_lt_of_not_lt_of_ne notLess different
        · exact first e he

structure Labels where
  pairs : List (String × String)
  ascending : Ascending pairs

namespace Labels

theorem ext_pairs {a b : Labels} (h : a.pairs = b.pairs) : a = b := by
  cases a; cases b; cases h; rfl

instance : DecidableEq Labels := fun a b =>
  if h : a.pairs = b.pairs then isTrue (ext_pairs h) else isFalse fun e => h (e ▸ rfl)

def empty : Labels := ⟨[], .nil⟩

instance : Inhabited Labels := ⟨empty⟩

def get? (labels : Labels) (name : String) : Option String := labels.pairs.lookup name

def contains (labels : Labels) (name : String) : Bool := (labels.get? name).isSome

def insert (labels : Labels) (name value : String) : Labels :=
  ⟨insertEntry name value labels.pairs, ascending_insertEntry labels.ascending⟩

def erase (labels : Labels) (name : String) : Labels :=
  ⟨labels.pairs.filter (·.1 ≠ name), labels.ascending.filter _⟩

def ofPairs (pairs : List (String × String)) : Labels :=
  pairs.foldl (fun labels pair => labels.insert pair.1 pair.2) empty

end Labels

end ProxyMonitor
