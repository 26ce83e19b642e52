import Mathlib.Data.List.Nodup
import ProxyMonitor.Document
import ProxyMonitor.Proofs.Reports.Aggregation
import ProxyMonitor.Proofs.Sorting.Toggling

/-! The natural order: rows that are numbered by their places come back to them, unchanged, as soon
as the index column is active and ascending, whatever was sorted before. -/

namespace ProxyMonitor

namespace Word

theorem toSigned_of_lt {word : Nat} (small : word < half) : toSigned word = word := if_pos small

theorem toSigned_half_lt : toSigned half < toSigned 0 := by decide

end Word

namespace SortKey

theorem le_ofWord_iff {m n : Nat} :
    le (some (ofWord m)) (some (ofWord n)) = true ↔ Word.toSigned m ≤ Word.toSigned n :=
  decide_eq_true_iff

end SortKey

section

variable {α : Type} [Sortable α] {field : String} {direction : SortDirection}
  {rows first second : List α}

theorem eq_of_ordered_perm (distinct : (second.map (Sortable.key · field)).Nodup)
    (ordered : Ordered field direction first) (alsoOrdered : Ordered field direction second)
    (perm : first.Perm second) : first = second := by
  apply perm.eq_of_pairwise _ ordered alsoOrdered
  intro a b inFirst inSecond before after
  have keys : Sortable.key a field = Sortable.key b field := direction.le_antisymm before after
  exact List.inj_on_of_nodup_map distinct (perm.mem_iff.mp inFirst) inSecond keys

/-- Each row has its place in the index column. -/
def PlaceNumbered (rows : List α) : Prop :=
  rows.map (Sortable.key · "index") =
    (List.range rows.length).map fun place => some (SortKey.ofWord place)

namespace PlaceNumbered

theorem key_eq (numbered : PlaceNumbered rows) {place : Nat} (inside : place < rows.length) :
    Sortable.key rows[place] "index" = some (SortKey.ofWord place) := by
  have same := congrArg (fun keys => keys[place]?) numbered
  simpa [List.getElem?_eq_getElem inside, inside] using same

theorem ordered_iff (numbered : PlaceNumbered rows) :
    Ordered "index" .ascending rows ↔ rows.length ≤ Word.half := by
  constructor
  · intro ordered
    by_contra more
    have many : Word.half < rows.length := Nat.lt_of_not_le more
    have positive : 0 < Word.half := by decide
    have first : 0 < rows.length := Nat.lt_trans positive many
    have before := List.pairwise_iff_getElem.mp ordered 0 Word.half first many positive
    rw [numbered.key_eq first, numbered.key_eq many] at before
    exact Int.not_le.mpr Word.toSigned_half_lt (SortKey.le_ofWord_iff.mp before)
  · intro few
    apply List.pairwise_iff_getElem.mpr
    intro i j first second less
    have small : j < Word.half := Nat.lt_of_lt_of_le second few
    rw [numbered.key_eq first, numbered.key_eq second]
    apply SortKey.le_ofWord_iff.mpr
    rw [Word.toSigned_of_lt (Nat.lt_trans less small), Word.toSigned_of_lt small]
    exact Int.ofNat_le.mpr (Nat.le_of_lt less)

theorem distinct (numbered : PlaceNumbered rows) (few : rows.length ≤ Word.half) :
    (rows.map (Sortable.key · "index")).Nodup := by
  rw [numbered]
  apply List.Nodup.map_on _ List.nodup_range
  intro i first j second same
  have low : i < Word.half := Nat.lt_of_lt_of_le (List.mem_range.mp first) few
  have high : j < Word.half := Nat.lt_of_lt_of_le (List.mem_range.mp second) few
  have signed : Word.toSigned i = Word.toSigned j := SortKey.int.inj (Option.some.inj same)
  rw [Word.toSigned_of_lt low, Word.toSigned_of_lt high] at signed
  exact Int.ofNat.inj signed

end PlaceNumbered

namespace SortState

theorem activateAll_perm (state : SortState) (fields : List String) (rows : List α) :
    (state.activateAll fields rows).2.Perm rows := by
  induction fields generalizing state rows with
  | nil => exact .refl rows
  | cons field rest ih =>
      have later := ih (state.activate field) ((state.activate field).apply rows)
      exact later.trans (sortRows_perm rows _ _)

theorem eq_of_directionOf? {state : SortState} {field : String} {direction : SortDirection}
    (shown : state.directionOf? field = some direction) :
    state.field = field ∧ state.direction = direction := by
  rw [directionOf?] at shown
  split at shown
  next held => exact ⟨eq_of_beq (Bool.and_eq_true_iff.mp held).2, Option.some.inj shown⟩
  next => cases shown

theorem activate_index (state : SortState) :
    state.activate "index" = initial ∨
      (state.activate "index").activate "index" = initial := by
  by_cases held : state.isActive "index"
  · obtain ⟨active, named⟩ := Bool.and_eq_true_iff.mp held
    obtain ⟨field, direction, _⟩ := state
    obtain rfl : field = "index" := eq_of_beq named
    subst active
    cases direction with
    | ascending => exact .inr rfl
    | descending => exact .inl rfl
  · exact .inl (if_neg held)

end SortState

/-- From every order that activations lead to, the rows find back to this one. -/
structure NaturallyOrdered (rows : List α) : Prop where
  recovered : ∀ (state : SortState) (fields : List String),
    (state.activateAll fields rows).1.directionOf? "index" = some .ascending →
      (state.activateAll fields rows).2 = rows
  /-- It takes one or two more activations of the index column. -/
  within_two : ∀ (state : SortState) (fields : List String), ∃ times, (times = 1 ∨ times = 2) ∧
    state.activateAll (fields ++ List.replicate times "index") rows = (SortState.initial, rows)

namespace PlaceNumbered

theorem sortRows_perm_eq (numbered : PlaceNumbered rows) (few : rows.length ≤ Word.half)
    {shown : List α} (perm : shown.Perm rows) : sortRows shown "index" .ascending = rows := by
  apply eq_of_ordered_perm (numbered.distinct few)
  · exact ordered_sortRows shown "index" .ascending
  · exact numbered.ordered_iff.mpr few
  · exact (sortRows_perm shown "index" .ascending).trans perm

theorem recovered (numbered : PlaceNumbered rows) (few : rows.length ≤ Word.half)
    (state : SortState) (fields : List String)
    (shown : (state.activateAll fields rows).1.directionOf? "index" = some .ascending) :
    (state.activateAll fields rows).2 = rows := by
  obtain ⟨named, ascending⟩ := SortState.eq_of_directionOf? shown
  rcases List.eq_nil_or_concat fields with rfl | ⟨before, field, rfl⟩
  · rfl
  · rw [List.concat_eq_append, SortState.activateAll_concat] at named ascending ⊢
    rw [SortState.activateRows] at named ascending ⊢
    dsimp only at named ascending ⊢
    rw [SortState.apply, named, ascending]
    exact numbered.sortRows_perm_eq few (state.activateAll_perm before rows)

theorem naturallyOrdered (numbered : PlaceNumbered rows) (few : rows.length ≤ Word.half) :
    NaturallyOrdered rows where
  recovered := numbered.recovered few
  within_two := by
    intro state fields
    have back : ∀ times, (state.activateAll (fields ++ List.replicate times "index") rows).1 =
        SortState.initial →
        state.activateAll (fields ++ List.replicate times "index") rows =
          (SortState.initial, rows) := by
      intro times reached
      have active : (state.activateAll (fields ++ List.replicate times "index") rows).1.directionOf?
          "index" = some .ascending := by
        rw [reached]
        rfl
      exact Prod.ext reached (numbered.recovered few state _ active)
    have state_eq : ∀ times,
        (state.activateAll (fields ++ List.replicate times "index") rows).1 =
          (List.replicate times "index").foldl SortState.activate
            (fields.foldl SortState.activate state) := by
      intro times
      rw [SortState.activateAll_state, List.foldl_append]
    rcases (fields.foldl SortState.activate state).activate_index with once | twice
    · exact ⟨1, .inl rfl, back 1 ((state_eq 1).trans once)⟩
    · exact ⟨2, .inr rfl, back 2 ((state_eq 2).trans twice)⟩

theorem naturallyOrdered_iff (numbered : PlaceNumbered rows) :
    NaturallyOrdered rows ↔ rows.length ≤ Word.half := by
  refine ⟨fun natural => numbered.ordered_iff.mp ?_, numbered.naturallyOrdered⟩
  have shown := natural.recovered (.new "") ["index"] rfl
  have sorted := ordered_sortRows rows "index" .ascending
  exact shown ▸ sorted

end PlaceNumbered

end

theorem placeNumbered_aggregate (reports : List RawReport) : PlaceNumbered (aggregate reports) := by
  have indexes := congrArg (List.map fun index => some (SortKey.ofWord index))
    (indexes_aggregate reports)
  rwa [List.map_map] at indexes

theorem length_aggregate_le (reports : List RawReport) :
    (aggregate reports).length ≤ reports.length := by
  have firsts := (firsts_sublist (fun report : RawReport => some report.url) reports).length_le
  have entries := congrArg List.length (urls_aggregate reports)
  rw [List.length_map, List.length_map] at entries
  rw [List.length_map] at firsts
  exact entries.trans_le firsts

theorem length_indexDocuments (documents : List Document) :
    (indexDocuments documents).length = documents.length := by
  rw [indexDocuments, List.length_map, List.length_zipIdx]

theorem placeNumbered_indexDocuments (documents : List Document) :
    PlaceNumbered (indexDocuments documents) := by
  have places : (indexDocuments documents).map (Sortable.key · "index") =
      (documents.zipIdx.map Prod.snd).map fun place => some (SortKey.ofWord place) := by
    rw [indexDocuments, List.map_map, List.map_map]
    rfl
  rw [PlaceNumbered, places, length_indexDocuments, List.zipIdx_map_snd, List.range_eq_range']

/-- Aggregated reports and numbered documents find back to their natural order, each entry as it
was. For documents this holds as long as their numbers are not negative with a sign, and no list in
memory is longer than that. -/
theorem natural_order_recovered :
    (∀ reports : List RawReport, reports.length < Word.half →
      NaturallyOrdered (aggregate reports)) ∧
    ∀ documents : List Document,
      NaturallyOrdered (indexDocuments documents) ↔ documents.length ≤ Word.half := by
  constructor
  · intro reports few
    apply (placeNumbered_aggregate reports).naturallyOrdered
    exact (length_aggregate_le reports).trans (Nat.le_of_lt few)
  · intro documents
    rw [(placeNumbered_indexDocuments documents).naturallyOrdered_iff, length_indexDocuments]

theorem natural_order_recovered_from_counts :
    let state := SortState.new "url"
    let entries := aggregate takingTurns
    takingTurns.length < Word.half ∧
      (state.activateAll ["num_reports"] entries).2 = entries.reverse ∧
      (state.activateAll ["num_reports", "index"] entries).1.directionOf? "index" =
        some .ascending ∧
      (state.activateAll ["num_reports", "index"] entries).2 = entries := by
  intro state entries
  have known : entries = _ := aggregate_takingTurns
  have few : takingTurns.length < Word.half := by decide
  have active : (state.activateAll ["num_reports", "index"] entries).1.directionOf? "index" =
      some .ascending := by
    rw [known]
    decide +kernel
  have reversed : sortRows entries "num_reports" .ascending = entries.reverse := by
    refine eq_of_ordered_perm ?_ (ordered_sortRows entries "num_reports" .ascending) ?_ ?_
    · rw [known]
      decide +kernel
    · rw [known]
      unfold Ordered
      decide +kernel
    · exact (sortRows_perm entries _ _).trans entries.reverse_perm.symm
  have natural := natural_order_recovered.1 takingTurns few
  exact ⟨few, reversed, active, natural.recovered state _ active⟩

end ProxyMonitor
