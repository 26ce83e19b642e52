import ProxyMonitor.Proofs.ByteOrder
import ProxyMonitor.Proofs.Sorting

/-! Sorting is stable in both directions: rows with one key stay in order. The order of the keys and
the rows of each key determine the list. -/

namespace ProxyMonitor

namespace SortKey

/-- A missing key comes first, then integers by value, then texts by their bytes in UTF-8. -/
inductive Before : Option SortKey → Option SortKey → Prop where
  | missing (key : SortKey) : Before none (some key)
  | int {m n : Int} (less : m < n) : Before (some (.int m)) (some (.int n))
  | mixed (n : Int) (t : String) : Before (some (.int n)) (some (.text t))
  | text {s t : String} (less : Text.bytes s < Text.bytes t) :
      Before (some (.text s)) (some (.text t))

theorem before_int_iff {m n : Int} : Before (some (.int m)) (some (.int n)) ↔ m < n := by
  refine ⟨fun before => ?_, .int⟩
  cases before with
  | int less => exact less

theorem before_text_iff {s t : String} : Before (some (.text s)) (some (.text t)) ↔ s < t := by
  refine ⟨fun before => ?_, fun less => .text (Text.bytes_lt_iff.mpr less)⟩
  cases before with
  | text less => exact Text.bytes_lt_iff.mp less

theorem le_iff {a b : Option SortKey} : le a b = true ↔ a = b ∨ Before a b := by
  cases a with
  | none =>
      cases b with
      | none => simp [le]
      | some key => simp [le, Before.missing]
  | some first =>
      cases b with
      | none =>
          have last : ¬ Before (some first) none := by
            intro before
            cases before
          simp [le, last]
      | some second =>
          cases first with
          | int m =>
              cases second with
              | int n => simp [le, before_int_iff, Int.le_iff_eq_or_lt]
              | text t => simp [le, Before.mixed]
          | text s =>
              cases second with
              | int n =>
                  have after : ¬ Before (some (.text s)) (some (.int n)) := by
                    intro before
                    cases before
                  simp [le, after]
              | text t => simp [le, before_text_iff, le_iff_eq_or_lt]

theorem le_antisymm {a b : Option SortKey} (first : le a b = true) (second : le b a = true) :
    a = b := by
  rcases le_iff.mp first with same | before
  · exact same
  · rcases le_iff.mp second with same | after
    · exact same.symm
    · cases before with
      | missing key => cases after
      | int less =>
          cases after with
          | int greater => exact absurd less (Int.not_lt.mpr (Int.le_of_lt greater))
      | mixed n t => cases after
      | text less =>
          cases after with
          | text greater => exact absurd less (List.not_lt.mpr (List.le_of_lt greater))

end SortKey

namespace SortDirection

def Precedes (direction : SortDirection) (a b : Option SortKey) : Prop :=
  match direction with
  | ascending => SortKey.Before a b
  | descending => SortKey.Before b a

theorem le_iff {direction : SortDirection} {a b : Option SortKey} :
    direction.le a b = true ↔ a = b ∨ direction.Precedes a b := by
  cases direction with
  | ascending => exact SortKey.le_iff
  | descending =>
      rw [eq_comm (a := a)]
      exact SortKey.le_iff

theorem le_refl (direction : SortDirection) (key : Option SortKey) :
    direction.le key key = true := le_iff.mpr (.inl rfl)

theorem le_antisymm {direction : SortDirection} {a b : Option SortKey}
    (first : direction.le a b = true) (second : direction.le b a = true) : a = b := by
  cases direction with
  | ascending => exact SortKey.le_antisymm first second
  | descending => exact SortKey.le_antisymm second first

end SortDirection

variable {α : Type} [Sortable α]

def keyed (field : String) (key : Option SortKey) (rows : List α) : List α :=
  rows.filter fun row => Sortable.key row field = key

/-- The same rows in the order of a column, those of each key as they stood before. -/
structure StablySorted (field : String) (direction : SortDirection) (rows sorted : List α) :
    Prop where
  perm : sorted.Perm rows
  ordered : sorted.Pairwise fun a b =>
    Sortable.key a field = Sortable.key b field ∨
      direction.Precedes (Sortable.key a field) (Sortable.key b field)
  stable : ∀ key, keyed field key sorted = keyed field key rows

section

variable {field : String} {direction : SortDirection} {rows first second : List α}

theorem ordered_iff : Ordered field direction rows ↔ rows.Pairwise fun a b =>
    Sortable.key a field = Sortable.key b field ∨
      direction.Precedes (Sortable.key a field) (Sortable.key b field) := by
  simp only [Ordered, SortDirection.le_iff]

theorem keyed_cons (row : α) (key : Option SortKey) :
    keyed field key (row :: rows) =
      if Sortable.key row field = key then row :: keyed field key rows
      else keyed field key rows := by
  simp [keyed, List.filter_cons]

theorem mem_keyed {row : α} {key : Option SortKey} :
    row ∈ keyed field key rows ↔ row ∈ rows ∧ Sortable.key row field = key := by
  simp [keyed]

theorem ordered_keyed (key : Option SortKey) : Ordered field direction (keyed field key rows) := by
  apply List.pairwise_of_forall_mem_list
  intro a member b other
  rw [(mem_keyed.mp member).2, (mem_keyed.mp other).2]
  exact direction.le_refl key

theorem keyed_sortRows (rows : List α) (field : String) (direction : SortDirection)
    (key : Option SortKey) :
    keyed field key (sortRows rows field direction) = keyed field key rows := by
  have kept : (keyed field key rows).Sublist (sortRows rows field direction) := by
    rw [sortRows_eq]
    apply List.sublist_mergeSort
    · exact fun _ _ _ => SortDirection.le_trans
    · exact fun _ _ => direction.le_total _ _
    · exact ordered_keyed key
    · exact List.filter_sublist
  have inside : (keyed field key rows).Sublist (keyed field key (sortRows rows field direction)) := by
    simpa only [keyed, List.filter_filter, Bool.and_self] using
      kept.filter fun row => Sortable.key row field = key
  have sameLength : (keyed field key (sortRows rows field direction)).length =
      (keyed field key rows).length :=
    ((sortRows_perm rows field direction).filter _).length_eq
  exact (inside.eq_of_length sameLength.symm).symm

theorem mem_iff_of_keyed (same : ∀ key, keyed field key first = keyed field key second) (row : α) :
    row ∈ first ↔ row ∈ second := by
  have here : row ∈ keyed field (Sortable.key row field) first ↔
      row ∈ keyed field (Sortable.key row field) second := by rw [same]
  simpa [mem_keyed] using here

theorem Ordered.head_le {row other : α} (ordered : Ordered field direction (row :: rows))
    (member : other ∈ row :: rows) :
    direction.le (Sortable.key row field) (Sortable.key other field) = true := by
  rcases List.mem_cons.mp member with rfl | inside
  · exact direction.le_refl _
  · exact List.rel_of_pairwise_cons ordered inside

theorem eq_of_keyed (ordered : Ordered field direction first)
    (alsoOrdered : Ordered field direction second)
    (same : ∀ key, keyed field key first = keyed field key second) : first = second := by
  have mem_iff := mem_iff_of_keyed same
  induction first generalizing second with
  | nil =>
      cases second with
      | nil => rfl
      | cons b others => simpa using mem_iff b
  | cons a rest ih =>
      cases second with
      | nil => simpa using mem_iff a
      | cons b others =>
          -- Each head stands in the other list, so neither key comes before the other.
          have keys : Sortable.key a field = Sortable.key b field := by
            apply direction.le_antisymm
            · exact ordered.head_le ((mem_iff b).mpr List.mem_cons_self)
            · exact alsoOrdered.head_le ((mem_iff a).mp List.mem_cons_self)
          obtain rfl : a = b := by
            have heads := same (Sortable.key b field)
            rw [keyed_cons, keyed_cons, if_pos keys, if_pos rfl] at heads
            exact (List.cons.inj heads).1
          have tails (key : Option SortKey) : keyed field key rest = keyed field key others := by
            have whole := same key
            rw [keyed_cons, keyed_cons] at whole
            split at whole
            · exact (List.cons.inj whole).2
            · exact whole
          have rest_eq : rest = others :=
            ih ordered.tail alsoOrdered.tail tails (mem_iff_of_keyed tails)
          rw [rest_eq]

theorem stablySorted_sortRows (rows : List α) (field : String) (direction : SortDirection) :
    StablySorted field direction rows (sortRows rows field direction) where
  perm := sortRows_perm rows field direction
  ordered := ordered_iff.mp (ordered_sortRows rows field direction)
  stable := keyed_sortRows rows field direction

/-- Sorting finds the rows of each key in order, and nothing else tells how rows are sorted. -/
theorem sortRows_eq_of_keyed (ordered : Ordered field direction first)
    (same : ∀ key, keyed field key first = keyed field key rows) :
    sortRows rows field direction = first := by
  apply eq_of_keyed (ordered_sortRows rows field direction) ordered
  intro key
  rw [keyed_sortRows, same]

theorem sortRows_of_ordered (ordered : Ordered field direction rows) :
    sortRows rows field direction = rows := sortRows_eq_of_keyed ordered fun _ => rfl

theorem ordered_of_keyless (keyless : ∀ row ∈ rows, Sortable.key row field = none) :
    Ordered field direction rows := by
  have all : keyed field none rows = rows := by
    apply List.filter_eq_self.mpr
    intro row member
    exact decide_eq_true (keyless row member)
  rw [← all]
  exact ordered_keyed none

end

/-- Sorting is stable in both directions. Rows without the column stay as they are, and so do rows
that are sorted again. -/
theorem sortRows_stable (rows : List α) (field : String) (direction : SortDirection) :
    StablySorted field direction rows (sortRows rows field direction) ∧
      ((∀ row ∈ rows, Sortable.key row field = none) → sortRows rows field direction = rows) ∧
      sortRows (sortRows rows field direction) field direction =
        sortRows rows field direction := by
  refine ⟨stablySorted_sortRows rows field direction, fun keyless => ?_, ?_⟩
  · exact sortRows_of_ordered (ordered_of_keyless keyless)
  · exact sortRows_of_ordered (ordered_sortRows rows field direction)

end ProxyMonitor
