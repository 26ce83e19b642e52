import ProxyMonitor.Sorting

namespace ProxyMonitor

namespace SortKey

theorem le_total (a b : Option SortKey) : (le a b || le b a) = true := by
  rw [Bool.or_eq_true]
  cases a with
  | none => exact .inl rfl
  | some first =>
      cases b with
      | none => exact .inr rfl
      | some second =>
          cases first with
          | int m =>
              cases second with
              | int n => simpa only [le, decide_eq_true_iff] using Int.le_total m n
              | text t => exact .inl rfl
          | text s =>
              cases second with
              | int n => exact .inr rfl
              | text t => simpa only [le, decide_eq_true_iff] using String.le_total s t

theorem le_trans {a b c : Option SortKey} (first : le a b = true) (second : le b c = true) :
    le a c = true := by
  cases a with
  | none => rfl
  | some low =>
      obtain ⟨middle, rfl⟩ : ∃ middle, b = some middle := by
        cases b with
        | none => cases first
        | some middle => exact ⟨middle, rfl⟩
      obtain ⟨high, rfl⟩ : ∃ high, c = some high := by
        cases c with
        | none => cases second
        | some high => exact ⟨high, rfl⟩
      cases low with
      | int l =>
          cases high with
          | text t => rfl
          | int n =>
              cases middle with
              | text t => cases second
              | int m =>
                  simp only [le, decide_eq_true_iff] at first second ⊢
                  exact Int.le_trans first second
      | text s =>
          cases middle with
          | int m => cases first
          | text t =>
              cases high with
              | int n => cases second
              | text u =>
                  simp only [le, decide_eq_true_iff] at first second ⊢
                  exact String.le_trans first second

end SortKey

namespace SortDirection

def le (direction : SortDirection) (a b : Option SortKey) : Bool :=
  match direction with
  | ascending => SortKey.le a b
  | descending => SortKey.le b a

theorem le_total (direction : SortDirection) (a b : Option SortKey) :
    (direction.le a b || direction.le b a) = true := by
  cases direction with
  | ascending => exact SortKey.le_total a b
  | descending => exact SortKey.le_total b a

theorem le_trans {direction : SortDirection} {a b c : Option SortKey}
    (first : direction.le a b = true) (second : direction.le b c = true) :
    direction.le a c = true := by
  cases direction with
  | ascending => exact SortKey.le_trans first second
  | descending => exact SortKey.le_trans second first

end SortDirection

namespace SortState

theorem activate_active (sort : SortState) (field : String) : (sort.activate field).active = true := by
  rw [activate]
  split
  next held => exact (Bool.and_eq_true_iff.mp held).1
  next => rfl

theorem activate_field (sort : SortState) (field : String) : (sort.activate field).field = field := by
  rw [activate]
  split
  next held => exact eq_of_beq (Bool.and_eq_true_iff.mp held).2
  next => rfl

end SortState

variable {α : Type} [Sortable α]

def Ordered (field : String) (direction : SortDirection) (rows : List α) : Prop :=
  rows.Pairwise fun a b => direction.le (Sortable.key a field) (Sortable.key b field) = true

theorem sortRows_perm (rows : List α) (field : String) (direction : SortDirection) :
    (sortRows rows field direction).Perm rows :=
  List.mergeSort_perm _ _

theorem sortRows_eq (rows : List α) (field : String) (direction : SortDirection) :
    sortRows rows field direction = rows.mergeSort fun a b =>
      direction.le (Sortable.key a field) (Sortable.key b field) := by
  cases direction <;> rfl

theorem ordered_sortRows (rows : List α) (field : String) (direction : SortDirection) :
    Ordered field direction (sortRows rows field direction) := by
  let le (a b : α) : Bool := direction.le (Sortable.key a field) (Sortable.key b field)
  have trans : ∀ a b c, le a b = true → le b c = true → le a c = true := fun _ _ _ =>
    SortDirection.le_trans
  have total : ∀ a b, (le a b || le b a) = true := fun _ _ => direction.le_total _ _
  rw [sortRows_eq]
  exact List.pairwise_mergeSort trans total rows

end ProxyMonitor
