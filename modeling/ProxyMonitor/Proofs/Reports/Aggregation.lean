import Mathlib.Algebra.Ring.Nat
import ProxyMonitor.Proofs.ByteOrder
import ProxyMonitor.Proofs.KeyedList
import ProxyMonitor.Proofs.Portions
import ProxyMonitor.Report

/-! Aggregated reports hold every report in the one entry of its url, whatever the order in which
the reports came. -/

namespace ProxyMonitor

theorem mergeCategories_append (known first second : List String) :
    mergeCategories known (first ++ second) =
      mergeCategories (mergeCategories known first) second :=
  List.foldl_append

theorem mergeCategories_eq (known added : List String) :
    mergeCategories known added = known ++ (added.filter fun c => !known.contains c).eraseDups := by
  induction added generalizing known with
  | nil => exact (List.append_nil known).symm
  | cons category rest ih =>
      have step : mergeCategories known (category :: rest) = mergeCategories
          (if known.contains category then known else known ++ [category]) rest := rfl
      rw [step, List.filter_cons]
      cases held : known.contains category with
      | true => exact ih known
      | false =>
          have later : (rest.filter fun c => !(known ++ [category]).contains c) =
              (rest.filter fun c => !known.contains c).filter fun c => !c == category := by
            rw [List.filter_filter]
            refine List.filter_congr fun c _ => ?_
            rw [List.contains_append, List.contains_cons, List.contains_nil, Bool.or_false,
              Bool.not_or, Bool.and_comm]
          rw [if_neg Bool.false_ne_true, ih, later, Bool.not_false, if_pos rfl,
            List.eraseDups_cons, List.append_assoc, List.singleton_append]

namespace AggregatedReport

theorem merge_updatedAt (entry : AggregatedReport) (report : RawReport) :
    (entry.merge report).updatedAt = max entry.updatedAt report.updatedAt :=
  (max_def_lt _ _).symm

theorem foldl_merge (rest : List RawReport) (entry : AggregatedReport) :
    rest.foldl merge entry =
      ⟨entry.index, entry.ids ++ rest.map RawReport.id, entry.url,
        mergeCategories entry.categories (rest.flatMap RawReport.categories),
        (rest.map RawReport.updatedAt).foldl max entry.updatedAt, entry.count + rest.length⟩ := by
  induction rest generalizing entry with
  | nil => simp [mergeCategories]
  | cons report rest ih =>
      rw [List.foldl_cons, ih, List.map_cons, List.map_cons, List.foldl_cons, List.flatMap_cons,
        mergeCategories_append, List.length_cons, Nat.add_comm rest.length, merge_updatedAt]
      simp only [merge, List.append_assoc, List.singleton_append, Nat.add_assoc]

def ofPortion (index : Nat) (portion : Portion RawReport) : AggregatedReport :=
  portion.rest.foldl merge (first index portion.first)

/-- An entry says of its reports all that it should. -/
structure Covers (entry : AggregatedReport) (own : List RawReport) : Prop where
  ids : entry.ids = own.map RawReport.id
  count : entry.count = entry.ids.length
  categories : entry.categories = (own.flatMap RawReport.categories).eraseDups
  updatedAt : entry.updatedAt ∈ own.map RawReport.updatedAt
  latest : ∀ report ∈ own, Text.bytes report.updatedAt ≤ Text.bytes entry.updatedAt

theorem covers_ofPortion (index : Nat) (portion : Portion RawReport) :
    (ofPortion index portion).Covers portion.items := by
  have times := List.max?_eq_some_iff.mp
    (List.max?_cons' : (portion.first.updatedAt :: portion.rest.map RawReport.updatedAt).max? = _)
  rw [ofPortion, foldl_merge]
  exact {
    ids := rfl
    count := by simp [first, Nat.add_comm]
    categories := by
      simp only [Portion.items, List.flatMap_cons, first]
      rw [← mergeCategories_append, mergeCategories_eq]
      simp
    updatedAt := times.1
    latest := fun report inside =>
      Text.bytes_le_bytes (times.2 report.updatedAt (List.mem_map_of_mem inside)) }

theorem ofPortion_index (index : Nat) (portion : Portion RawReport) :
    (ofPortion index portion).index = index := by
  rw [ofPortion, foldl_merge]
  rfl

theorem ofPortion_url (index : Nat) (portion : Portion RawReport) :
    (ofPortion index portion).url = portion.first.url := by
  rw [ofPortion, foldl_merge]
  rfl

def place (report : RawReport) : (index : Nat) → List AggregatedReport → List AggregatedReport
  | index, [] => [first index report]
  | index, entry :: rest =>
    if entry.url = report.url then entry.merge report :: rest
    else entry :: place report (index + 1) rest

theorem place_eq (report : RawReport) (index : Nat) (entries : List AggregatedReport) :
    place report index entries =
      match entries.findIdx? (·.url == report.url) with
      | some position => entries.modify position (·.merge report)
      | none => entries ++ [first (index + entries.length) report] := by
  induction entries generalizing index with
  | nil => rfl
  | cons entry rest ih =>
      rw [place, List.findIdx?_cons]
      by_cases own : entry.url = report.url
      · rw [if_pos own, if_pos (beq_iff_eq.mpr own)]
        rfl
      · rw [if_neg own, if_neg (beq_iff_eq.not.mpr own), ih]
        cases rest.findIdx? (·.url == report.url) with
        | some position => rfl
        | none =>
            dsimp only [Option.map_none]
            rw [List.length_cons, Nat.add_right_comm, Nat.add_assoc]
            rfl

theorem foldl_place_cons (reports : List RawReport) (index : Nat) (entry : AggregatedReport)
    (entries : List AggregatedReport) :
    reports.foldl (fun entries report => place report index entries) (entry :: entries) =
      (reports.filter (·.url = entry.url)).foldl merge entry ::
        (reports.filter (·.url ≠ entry.url)).foldl
          (fun entries report => place report (index + 1) entries) entries := by
  induction reports generalizing entry entries with
  | nil => rfl
  | cons report rest ih =>
      rw [List.foldl_cons, place]
      by_cases own : entry.url = report.url
      · rw [if_pos own, ih, List.filter_cons_of_pos (by simp [own]),
          List.filter_cons_of_neg (by simp [own])]
        rfl
      · rw [if_neg own, ih, List.filter_cons_of_neg (by simpa using Ne.symm own),
          List.filter_cons_of_pos (by simpa using Ne.symm own)]
        rfl

end AggregatedReport

open AggregatedReport

namespace Aggregation

/-- The map leads to the place of each url. -/
structure Holds (aggregation : Aggregation) (entries : List AggregatedReport) : Prop where
  listed : aggregation.entries.toList = entries
  indexed : Indexes aggregation.positions (entries.map fun entry => some entry.url)

theorem Holds.add {aggregation : Aggregation} {entries : List AggregatedReport}
    (h : aggregation.Holds entries) (report : RawReport) :
    (aggregation.add report).Holds (place report 0 entries) := by
  obtain ⟨rfl, indexed⟩ := h
  have searched : aggregation.positions[report.url]? =
      aggregation.entries.toList.findIdx? (·.url == report.url) := by
    rw [indexed.place, List.findIdx?_map]
    exact congrArg (List.findIdx? · _) (funext fun entry => by simp)
  rw [Aggregation.add, place_eq, ← searched]
  cases found : aggregation.positions[report.url]? with
  | some position =>
      refine ⟨Array.toList_modify, ?_⟩
      have same (entry : AggregatedReport) : some (entry.merge report).url = some entry.url := rfl
      dsimp only
      rwa [map_key_modify same]
  | none =>
      have fresh := indexed.push_some found
      rw [List.length_map, Array.length_toList] at fresh
      refine ⟨by simp, ?_⟩
      simpa [first] using fresh

end Aggregation

theorem aggregate_eq_foldl (reports : List RawReport) :
    aggregate reports = reports.foldl (fun entries report => place report 0 entries) [] := by
  suffices ∀ {aggregation : Aggregation} {entries : List AggregatedReport},
      aggregation.Holds entries → (reports.foldl Aggregation.add aggregation).Holds
        (reports.foldl (fun entries report => place report 0 entries) entries) from
    (this ⟨rfl, .empty⟩).listed
  induction reports with
  | nil => exact id
  | cons report rest ih => exact fun h => ih (h.add report)

def portionsByUrl (reports : List RawReport) : List (Portion RawReport) :=
  gather (fun report => some report.url) reports

theorem foldl_place (reports : List RawReport) (index : Nat) :
    reports.foldl (fun entries report => place report index entries) [] =
      ((portionsByUrl reports).zipIdx index).map fun placed => ofPortion placed.2 placed.1 := by
  rw [portionsByUrl]
  induction reports using gather.induct (fun report : RawReport => some report.url)
    generalizing index with
  | case1 => rw [gather]; rfl
  | case2 report rest ih =>
      have apart : (rest.filter fun other => decide (other.url ≠ report.url)) =
          others (fun report => some report.url) report rest := by
        rw [others]
        exact List.filter_congr fun other _ => by simp [beq_eq_decide]
      have own : (rest.filter fun other => decide (other.url = report.url)) =
          rest.filter fun other => kin (some report.url) (some other.url) :=
        List.filter_congr fun other _ => by simp [beq_eq_decide]
      rw [List.foldl_cons, place, foldl_place_cons, gather, List.zipIdx_cons, List.map_cons, ← ih,
        ← apart, ← own]
      rfl

theorem aggregate_eq (reports : List RawReport) :
    aggregate reports =
      (portionsByUrl reports).zipIdx.map fun placed => ofPortion placed.2 placed.1 :=
  (aggregate_eq_foldl reports).trans (foldl_place reports 0)

theorem map_aggregate {β : Type} {f : AggregatedReport → β} {g : Portion RawReport → β}
    (same : ∀ index portion, f (ofPortion index portion) = g portion) (reports : List RawReport) :
    (aggregate reports).map f = (portionsByUrl reports).map g := by
  rw [aggregate_eq, List.map_map]
  conv_rhs => rw [← List.zipIdx_map_fst 0 (portionsByUrl reports), List.map_map]
  exact List.map_congr_left fun placed _ => same placed.2 placed.1

theorem urls_aggregate (reports : List RawReport) :
    (aggregate reports).map AggregatedReport.url =
      (portionsByUrl reports).map fun portion => portion.first.url :=
  map_aggregate ofPortion_url reports

theorem nodup_urls (reports : List RawReport) :
    ((aggregate reports).map AggregatedReport.url).Nodup := by
  rw [urls_aggregate]
  refine (pairwise_gather (fun report => some report.url) reports).map _ ?_
  intro portion later apart same
  exact apart _ rfl (congrArg some same.symm)

theorem indexes_aggregate (reports : List RawReport) :
    (aggregate reports).map AggregatedReport.index = List.range (aggregate reports).length := by
  have placed : (aggregate reports).map AggregatedReport.index =
      (portionsByUrl reports).zipIdx.map Prod.snd := by
    rw [aggregate_eq, List.map_map]
    exact List.map_congr_left fun placed _ => ofPortion_index placed.2 placed.1
  rw [placed, List.zipIdx_map_snd, ← List.range_eq_range', aggregate_eq, List.length_map,
    List.length_zipIdx]

theorem covers_of_mem_aggregate {reports : List RawReport} {entry : AggregatedReport}
    (member : entry ∈ aggregate reports) : entry.Covers (reports.filter (·.url = entry.url)) := by
  rw [aggregate_eq] at member
  obtain ⟨⟨portion, index⟩, inside, rfl⟩ := List.mem_map.mp member
  have own := items_of_key (List.fst_mem_of_mem_zipIdx inside) rfl
  have covers := covers_ofPortion index portion
  rw [own] at covers
  simpa [ofPortion_url, beq_eq_decide] using covers

theorem sum_counts (reports : List RawReport) :
    ((aggregate reports).map AggregatedReport.count).sum = reports.length := by
  have sizes : ∀ index portion, (ofPortion index portion).count = portion.items.length := by
    intro index portion
    have covers := covers_ofPortion index portion
    rw [covers.count, covers.ids, List.length_map]
  rw [map_aggregate sizes, ← List.length_flatMap]
  exact (flatMap_items_gather_perm _ reports).length_eq

theorem ids_aggregate_perm (reports : List RawReport) :
    ((aggregate reports).flatMap fun entry => entry.ids.map (entry.url, ·)).Perm
      (reports.map fun report => (report.url, report.id)) := by
  have told : ∀ index portion,
      (ofPortion index portion).ids.map ((ofPortion index portion).url, ·) =
        portion.items.map fun report => (portion.first.url, report.id) := by
    intro index portion
    rw [(covers_ofPortion index portion).ids, ofPortion_url, List.map_map]
    rfl
  have own : ∀ portion ∈ portionsByUrl reports,
      (portion.items.map fun report => (portion.first.url, report.id)) =
        portion.items.map fun report => (report.url, report.id) := by
    intro portion member
    refine List.map_congr_left fun report inside => ?_
    have same : some report.url = some portion.first.url := key_of_mem_items member inside
    rw [Option.some.inj same]
  rw [List.flatMap_def, map_aggregate told, List.map_congr_left own, ← List.flatMap_def,
    ← List.map_flatMap]
  exact (flatMap_items_gather_perm _ reports).map _

/-- There is one entry for each url, in the order in which the urls came up, and numbered by place.
It covers the reports of its url. So the counts add up to the number of reports, and each id stays
with its url. -/
theorem aggregate_exact (reports : List RawReport) :
    (aggregate reports).map AggregatedReport.url = (reports.map RawReport.url).eraseDups ∧
    ((aggregate reports).map AggregatedReport.url).Nodup ∧
    (aggregate reports).map AggregatedReport.index = List.range (aggregate reports).length ∧
    (∀ entry ∈ aggregate reports, entry.Covers (reports.filter (·.url = entry.url))) ∧
    ((aggregate reports).map AggregatedReport.count).sum = reports.length ∧
    ((aggregate reports).flatMap fun entry => entry.ids.map (entry.url, ·)).Perm
      (reports.map fun report => (report.url, report.id)) := by
  refine ⟨?_, nodup_urls reports, indexes_aggregate reports,
    fun _ => covers_of_mem_aggregate, sum_counts reports, ids_aggregate_perm reports⟩
  rw [urls_aggregate, portionsByUrl, map_name_gather]

def takingTurns : List RawReport :=
  [⟨"1", "A", ["x", "y", "x"], "2023-02", []⟩, ⟨"2", "B", ["z"], "2024-01", []⟩,
    ⟨"3", "A", ["z", "y"], "2023-01", []⟩, ⟨"1", "A", [], "2023-03", []⟩]

theorem aggregate_takingTurns : aggregate takingTurns =
    [⟨0, ["1", "3", "1"], "A", ["x", "y", "z"], "2023-03", 3⟩,
      ⟨1, ["2"], "B", ["z"], "2024-01", 1⟩] := by
  rw [aggregate_eq_foldl]
  decide +kernel

theorem aggregate_exact_turns :
    aggregate takingTurns =
        [⟨0, ["1", "3", "1"], "A", ["x", "y", "z"], "2023-03", 3⟩,
          ⟨1, ["2"], "B", ["z"], "2024-01", 1⟩] ∧
      (⟨0, ["1", "3", "1"], "A", ["x", "y", "z"], "2023-03", 3⟩ : AggregatedReport).Covers
        (takingTurns.filter (·.url = "A")) := by
  refine ⟨aggregate_takingTurns, (aggregate_exact takingTurns).2.2.2.1 _ ?_⟩
  rw [aggregate_takingTurns]
  exact List.mem_cons_self

end ProxyMonitor
