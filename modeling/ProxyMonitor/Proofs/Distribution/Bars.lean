import Mathlib.Data.List.Sort
import ProxyMonitor.Proofs.Distribution.Counts
import ProxyMonitor.Proofs.NumberOrder
import ProxyMonitor.Proofs.Portions

/-! The response time bars stand in order, one for each bound, whatever the order of the samples.
They count the rises of all histograms, and no request is lost as long as a word holds the total. -/

namespace ProxyMonitor

namespace Bar

def place? (bar : Bar) : Option Int := bar.upperBound.position?

def emptied (bar : Bar) : Bar := { bar with count := 0 }

def raise (bar item : Bar) : Bar :=
  { bar with count := Nat.min (bar.count + item.count) Word.greatest }

theorem emptied_place (bar : Bar) : bar.emptied.place? = bar.place? := rfl

theorem raise_place (bar item : Bar) : (bar.raise item).place? = bar.place? := rfl

/-- What two bars have in common that agree in numbers. -/
def shown (bar : Bar) : Option Int × Nat := (bar.place?, bar.count)

theorem same_eq_kin (bar other : Bar) :
    bar.upperBound.same other.upperBound = kin bar.place? other.place? := by
  rw [Binary64.same, place?, place?]
  cases bar.upperBound.position? <;> cases other.upperBound.position? <;>
    simp [kin, eq_comm, beq_eq_decide]

theorem foldl_raise {bar : Bar} (fits : bar.count ≤ Word.greatest) (items : List Bar) :
    items.foldl raise bar =
      ⟨bar.upperBound, min Word.greatest (bar.count + (items.map count).sum)⟩ := by
  induction items generalizing bar with
  | nil => simp [fits]
  | cons item rest ih =>
      have here : (bar.raise item).count = min (bar.count + item.count) Word.greatest := rfl
      rw [List.foldl_cons, ih (here ▸ Nat.min_le_right _ _), here, List.map_cons, List.sum_cons]
      congr 1
      omega

end Bar

namespace Distribution

open Binary64

def allBars (histograms : List (List Bucket)) : List Bar := histograms.flatMap (barsAfter .zero)

def merged (portion : Portion Bar) : Bar :=
  ⟨portion.first.upperBound, min Word.greatest (portion.items.map Bar.count).sum⟩

@[simp] theorem merged_place (portion : Portion Bar) :
    (merged portion).place? = portion.first.place? := rfl

theorem assemble_eq_merged (portion : Portion Bar) :
    portion.assemble Bar.emptied Bar.raise = merged portion := by
  rw [Portion.assemble, Bar.foldl_raise (Nat.zero_le _), merged]
  simp [Bar.emptied]

def unsorted (histograms : List (List Bucket)) : List Bar :=
  (gather Bar.place? (allBars histograms)).map merged

theorem tally_eq_deposit {bar : Bar} (fits : bar.count ≤ Word.greatest) (bars : List Bar) :
    tally bar.upperBound bar.count bars =
      deposit Bar.place? Bar.place? Bar.emptied Bar.raise bars bar := by
  induction bars with
  | nil =>
      have fresh : bar.emptied.raise bar = bar := by
        rw [Bar.raise, Bar.emptied, Nat.zero_add]
        congr 1
        exact Nat.min_eq_left fits
      rw [deposit_nil, fresh, tally]
  | cons first rest ih =>
      rw [tally, deposit_cons, Bar.same_eq_kin, ih]
      rfl

theorem tallyBuckets_eq (previous : Binary64) (bars : List Bar) (buckets : List Bucket) :
    tallyBuckets previous bars buckets = (barsAfter previous buckets).foldl
      (deposit Bar.place? Bar.place? Bar.emptied Bar.raise) bars := by
  induction buckets generalizing previous bars with
  | nil => rfl
  | cons bucket rest ih =>
      rw [tallyBuckets, ih, barsAfter_cons, List.foldl_cons, ownCount_eq_rise,
        ← tally_eq_deposit (rise_le _ _)]

theorem foldl_tallyBuckets (histograms : List (List Bucket)) :
    histograms.foldl (tallyBuckets .zero) [] = unsorted histograms := by
  have step : tallyBuckets .zero = fun bars buckets => (barsAfter .zero buckets).foldl
      (deposit Bar.place? Bar.place? Bar.emptied Bar.raise) bars := by
    funext bars buckets
    exact tallyBuckets_eq .zero bars buckets
  calc
    histograms.foldl (tallyBuckets .zero) [] = (allBars histograms).foldl
        (deposit Bar.place? Bar.place? Bar.emptied Bar.raise) [] := by
      rw [step, allBars, List.foldl_flatMap]
    _ = (gather Bar.place? (allBars histograms)).map (Portion.assemble Bar.emptied Bar.raise) :=
      foldl_deposit Bar.raise_place Bar.emptied_place _
    _ = _ := List.map_congr_left fun portion _ => assemble_eq_merged portion

def totalAt (histograms : List (List Bucket)) (place : Int) : Nat :=
  (((allBars histograms).filter (·.place? == some place)).map Bar.count).sum

section

variable {histograms : List (List Bucket)}

theorem upperBounds_allBars (histograms : List (List Bucket)) :
    (allBars histograms).map Bar.upperBound = histograms.flatten.map Bucket.upperBound := by
  induction histograms with
  | nil => rfl
  | cons buckets rest ih =>
      rw [allBars, List.flatMap_cons, List.map_append, upperBounds_barsAfter, List.flatten_cons,
        List.map_append]
      exact congrArg _ ih

theorem count_of_mem_unsorted {bar : Bar} {place : Int} (member : bar ∈ unsorted histograms)
    (here : bar.place? = some place) :
    bar.count = min Word.greatest (totalAt histograms place) := by
  obtain ⟨portion, inside, rfl⟩ := List.mem_map.mp member
  have keyed : portion.first.place? = some place := here
  rw [merged, items_of_key inside keyed, totalAt]

theorem exists_mem_unsorted {bucket : Bucket} (inside : bucket ∈ histograms.flatten)
    (number : bucket.upperBound.isNaN = false) :
    ∃ bar ∈ unsorted histograms, bar.upperBound.same bucket.upperBound = true := by
  have bound : bucket.upperBound ∈ (allBars histograms).map Bar.upperBound := by
    rw [upperBounds_allBars]
    exact List.mem_map_of_mem inside
  obtain ⟨entry, member, equal⟩ := List.mem_map.mp bound
  have among := (flatMap_items_gather_perm Bar.place? (allBars histograms)).mem_iff.mpr member
  obtain ⟨portion, gathered, own⟩ := List.mem_flatMap.mp among
  have place : (merged portion).place? = entry.place? := (key_of_mem_items gathered own).symm
  have here : entry.place? = _ := position_of_totalKey (equal ▸ number)
  refine ⟨merged portion, List.mem_map_of_mem gathered, ?_⟩
  rw [← equal, Bar.same_eq_kin, place, here, kin_some, beq_self_eq_true]

theorem upperBound_of_mem_unsorted {bar : Bar} (member : bar ∈ unsorted histograms) :
    bar.upperBound ∈ histograms.flatten.map Bucket.upperBound := by
  obtain ⟨portion, inside, rfl⟩ := List.mem_map.mp member
  have first : portion.first ∈ allBars histograms :=
    (firsts_sublist Bar.place? _).subset (List.mem_map_of_mem inside)
  rw [← upperBounds_allBars]
  exact List.mem_map.mpr ⟨portion.first, first, rfl⟩

theorem pairwise_unsorted (histograms : List (List Bucket)) :
    (unsorted histograms).Pairwise fun bar other =>
      bar.upperBound.same other.upperBound = false := by
  apply (pairwise_gather Bar.place? _).map
  intro portion later apart
  rw [Bar.same_eq_kin]
  cases here : (merged portion).place? with
  | none => rfl
  | some place => simpa using apart place here

end

/-- What a histogram rises by at a bound. -/
def risesAt (bound : Binary64) (buckets : List Bucket) : Nat :=
  (((barsAfter .zero buckets).filter (·.upperBound.same bound)).map Bar.count).sum

/-- The bars stand in order, one for each bound of the histograms, and count what these rise by
there, up to the greatest word. -/
structure Tallied (histograms : List (List Bucket)) (bars : List Bar) : Prop where
  ascending : bars.Pairwise fun bar later => bar.upperBound.lt later.upperBound = true
  occurs : ∀ bar ∈ bars, bar.upperBound ∈ histograms.flatten.map Bucket.upperBound
  complete : ∀ bucket ∈ histograms.flatten, ∃ bar ∈ bars,
    bar.upperBound.same bucket.upperBound = true
  counts : ∀ bar ∈ bars,
    bar.count = min Word.greatest (histograms.map (risesAt bar.upperBound)).sum

theorem sum_risesAt {bar : Bar} {place : Int} (here : bar.place? = some place)
    (histograms : List (List Bucket)) :
    (histograms.map (risesAt bar.upperBound)).sum = totalAt histograms place := by
  have here_iff (other : Bar) :
      other.upperBound.same bar.upperBound = (other.place? == some place) := by
    rw [Bar.same_eq_kin, here]
    cases other.place? <;> simp [kin, eq_comm]
  induction histograms with
  | nil => rfl
  | cons buckets rest ih =>
      rw [List.map_cons, List.sum_cons, ih, totalAt, totalAt, allBars, allBars, List.flatMap_cons,
        List.filter_append, List.map_append, List.sum_append, risesAt,
        List.filter_congr fun other _ => here_iff other]

theorem tallied_of_perm {histograms : List (List Bucket)} {bars : List Bar}
    (numbers : ∀ bucket ∈ histograms.flatten, bucket.upperBound.isNaN = false)
    (perm : bars.Perm (unsorted histograms))
    (ordered : bars.Pairwise fun bar later =>
      bar.upperBound.totalKey ≤ later.upperBound.totalKey) : Tallied histograms bars := by
  have occurs : ∀ bar ∈ bars, bar.upperBound ∈ histograms.flatten.map Bucket.upperBound :=
    fun bar member => upperBound_of_mem_unsorted (perm.mem_iff.mp member)
  have number : ∀ bar ∈ bars, bar.upperBound.isNaN = false := by
    intro bar member
    obtain ⟨bucket, inside, bound⟩ := List.mem_map.mp (occurs bar member)
    rw [← bound]
    exact numbers bucket inside
  have apart : bars.Pairwise fun bar later => bar.upperBound.same later.upperBound = false := by
    apply (perm.pairwise_iff ?_).mpr (pairwise_unsorted histograms)
    intro bar later differ
    rwa [same_comm]
  refine ⟨?_, occurs, ?_, ?_⟩
  · apply (ordered.and apart).imp_of_mem
    intro bar later member after sorted
    exact lt_of_totalKey_le sorted.1 (number bar member) (number later after) sorted.2
  · intro bucket inside
    obtain ⟨bar, kept, same⟩ := exists_mem_unsorted inside (numbers bucket inside)
    exact ⟨bar, perm.mem_iff.mpr kept, same⟩
  · intro bar member
    have here := position_of_totalKey (number bar member)
    rw [count_of_mem_unsorted (perm.mem_iff.mp member) here, sum_risesAt here]

section

variable {histograms others : List (List Bucket)} {bars otherBars : List Bar}

theorem totalAt_perm (perm : others.Perm histograms) (place : Int) :
    totalAt others place = totalAt histograms place :=
  (((perm.flatMap_right (barsAfter .zero)).filter _).map _).sum_eq

theorem Tallied.exists_place (tallied : Tallied histograms bars) {bar : Bar}
    (member : bar ∈ bars) : ∃ place, bar.place? = some place := by
  obtain ⟨bucket, inside, bound⟩ := List.mem_map.mp (tallied.occurs bar member)
  obtain ⟨other, -, same⟩ := tallied.complete bucket inside
  obtain ⟨place, -, here⟩ := same_iff.mp same
  exact ⟨place, by rw [Bar.place?, ← bound, here]⟩

theorem Tallied.mem_places_iff (tallied : Tallied histograms bars) (place : Int) :
    place ∈ bars.filterMap Bar.place? ↔
      ∃ bucket ∈ histograms.flatten, bucket.upperBound.position? = some place := by
  rw [List.mem_filterMap]
  constructor
  · rintro ⟨bar, member, here⟩
    obtain ⟨bucket, inside, bound⟩ := List.mem_map.mp (tallied.occurs bar member)
    exact ⟨bucket, inside, by rw [bound, ← here, Bar.place?]⟩
  · rintro ⟨bucket, inside, here⟩
    obtain ⟨bar, member, same⟩ := tallied.complete bucket inside
    obtain ⟨other, there, also⟩ := same_iff.mp same
    rw [here] at also
    exact ⟨bar, member, there.trans also.symm⟩

theorem Tallied.pairwise_places (tallied : Tallied histograms bars) :
    (bars.filterMap Bar.place?).Pairwise (· < ·) := by
  apply tallied.ascending.filterMap
  intro bar later below place here other there
  obtain ⟨a, b, left, right, less⟩ := lt_iff.mp below
  rw [Bar.place?, left] at here
  rw [Bar.place?, right] at there
  cases here
  cases there
  exact less

/-- The places and the totals there tell what the bars are, up to the signs of zeros. -/
theorem Tallied.map_shown (tallied : Tallied histograms bars) :
    bars.map Bar.shown = (bars.filterMap Bar.place?).map fun place =>
      (some place, min Word.greatest (totalAt histograms place)) := by
  rw [List.map_filterMap, ← List.filterMap_eq_map]
  apply List.filterMap_congr
  intro bar member
  obtain ⟨place, here⟩ := tallied.exists_place member
  rw [here, Option.map_some, Function.comp_apply, Bar.shown, here, tallied.counts bar member,
    sum_risesAt here]

theorem Tallied.shown_of_perm (tallied : Tallied histograms bars)
    (other : Tallied others otherBars) (perm : others.Perm histograms) :
    otherBars.map Bar.shown = bars.map Bar.shown := by
  have places : otherBars.filterMap Bar.place? = bars.filterMap Bar.place? := by
    apply other.pairwise_places.eq_of_mem_iff tallied.pairwise_places
    intro place
    rw [other.mem_places_iff, tallied.mem_places_iff]
    simp only [perm.flatten.mem_iff]
  rw [other.map_shown, tallied.map_shown, places]
  apply List.map_congr_left
  intro place _
  rw [totalAt_perm perm]

end

theorem sum_counts {histograms : List (List Bucket)} {bars : List Bar}
    (perm : bars.Perm (unsorted histograms))
    (fits : ((allBars histograms).map Bar.count).sum ≤ Word.greatest) :
    (bars.map Bar.count).sum = ((allBars histograms).map Bar.count).sum := by
  have own : ∀ portion ∈ gather Bar.place? (allBars histograms),
      (merged portion).count = (portion.items.map Bar.count).sum := by
    intro portion member
    have part : (portion.items.map Bar.count).sum ≤ ((allBars histograms).map Bar.count).sum :=
      ((items_sublist member).map _).sum_le_sum fun _ _ => Nat.zero_le _
    exact Nat.min_eq_right (Nat.le_trans part fits)
  calc
    (bars.map Bar.count).sum = ((unsorted histograms).map Bar.count).sum := (perm.map _).sum_eq
    _ = ((gather Bar.place? (allBars histograms)).map fun portion =>
          (portion.items.map Bar.count).sum).sum := by
      rw [unsorted, List.map_map]
      exact congrArg List.sum (List.map_congr_left own)
    _ = (((gather Bar.place? (allBars histograms)).flatMap Portion.items).map Bar.count).sum := by
      rw [List.map_flatMap, List.flatMap_def, List.sum_flatten, List.map_map]
      rfl
    _ = _ := ((flatMap_items_gather_perm Bar.place? _).map _).sum_eq

theorem sum_allBars {histograms : List (List Bucket)} {counts : List (List Nat)}
    (counted : List.Forall₂ Counted histograms counts) :
    ((allBars histograms).map Bar.count).sum = (counts.map (·.getLastD 0)).sum := by
  induction counted with
  | nil => rfl
  | cons here _ ih =>
      have first := sum_barsAfter zero_is (fun n _ => Nat.zero_le n) here
      rw [Nat.zero_add] at first
      rw [List.map_cons, List.sum_cons, ← ih, ← first, allBars, List.flatMap_cons, List.map_append,
        List.sum_append]
      rfl

def responseSamples (snapshot : Snapshot) : List Sample :=
  ((snapshot.family? MetricName.apiResponseTime).map Family.samples).getD []

def responseHistograms (snapshot : Snapshot) : List (List Bucket) :=
  (responseSamples snapshot).filterMap Sample.buckets?

theorem responseTimes_eq (snapshot : Snapshot) :
    responseTimes snapshot =
      (unsorted (responseHistograms snapshot)).mergeSort
        fun bar later => bar.upperBound.totalKey ≤ later.upperBound.totalKey := by
  rw [← foldl_tallyBuckets, responseTimes, responseHistograms, responseSamples]
  cases snapshot.family? MetricName.apiResponseTime with
  | none => exact List.mergeSort_nil.symm
  | some family => rfl

theorem responseTimes_perm (snapshot : Snapshot) :
    (responseTimes snapshot).Perm (unsorted (responseHistograms snapshot)) := by
  rw [responseTimes_eq]
  exact List.mergeSort_perm _ _

theorem tallied_responseTimes {snapshot : Snapshot}
    (numbers : ∀ bucket ∈ (responseHistograms snapshot).flatten, bucket.upperBound.isNaN = false) :
    Tallied (responseHistograms snapshot) (responseTimes snapshot) := by
  refine tallied_of_perm numbers (responseTimes_perm snapshot) ?_
  rw [responseTimes_eq]
  refine (List.pairwise_mergeSort ?_ ?_ _).imp of_decide_eq_true
  · intro a b c first second
    exact decide_eq_true (Int.le_trans (of_decide_eq_true first) (of_decide_eq_true second))
  · intro a b
    rw [Bool.or_eq_true_iff, decide_eq_true_eq, decide_eq_true_eq]
    exact Int.le_total _ _

/-- The bars are a tally of the histograms in whatever order the samples come. If all cumulative
counts are whole numbers in ascending order, the bars count as much as the histograms do. -/
theorem responseTimes_tallied (snapshot : Snapshot)
    (numbers : ∀ bucket ∈ (responseHistograms snapshot).flatten, bucket.upperBound.isNaN = false) :
    Tallied (responseHistograms snapshot) (responseTimes snapshot) ∧
    (∀ other : Snapshot, (responseSamples other).Perm (responseSamples snapshot) →
      (responseTimes other).map Bar.shown = (responseTimes snapshot).map Bar.shown) ∧
    ∀ counts, List.Forall₂ Counted (responseHistograms snapshot) counts →
      (counts.map (·.getLastD 0)).sum ≤ Word.greatest →
      ((responseTimes snapshot).map Bar.count).sum = (counts.map (·.getLastD 0)).sum := by
  have tallied := tallied_responseTimes numbers
  refine ⟨tallied, fun other samples => ?_, fun counts counted fits => ?_⟩
  · have perm : (responseHistograms other).Perm (responseHistograms snapshot) :=
      samples.filterMap _
    have otherNumbers : ∀ bucket ∈ (responseHistograms other).flatten,
        bucket.upperBound.isNaN = false :=
      fun bucket member => numbers bucket (perm.flatten.mem_iff.mp member)
    exact tallied.shown_of_perm (tallied_responseTimes otherNumbers) perm
  · rw [← sum_allBars counted] at fits ⊢
    exact sum_counts (responseTimes_perm snapshot) fits

def histogramOf (steps : List (Binary64 × Nat)) : List Bucket :=
  steps.map fun step => ⟨step.1, .ofNat step.2⟩

theorem counted_histogramOf {steps : List (Binary64 × Nat)}
    (ascending : (steps.map Prod.snd).Pairwise (· ≤ ·))
    (small : ∀ n ∈ steps.map Prod.snd, n ≤ 2 ^ 53) :
    Counted (histogramOf steps) (steps.map Prod.snd) where
  whole := by
    rw [histogramOf, List.forall₂_map_left_iff, List.forall₂_map_right_iff, List.forall₂_same]
    exact fun step member => ofNat_is (small step.2 (List.mem_map_of_mem member))
  ascending := ascending
  small := small

def fineSteps : List (Binary64 × Nat) := [(.zero, 3), (.ofNat 5, 7), (.infinite false, 9)]

def coarseSteps : List (Binary64 × Nat) :=
  [(.ofNat 10, 2), (.negativeZero, 2), (.ofNat 5, 6), (.ofNat 5, 8)]

def mixedSamples : List Sample :=
  [⟨.empty, .histogram (histogramOf fineSteps) .zero .zero⟩, ⟨.empty, .single (.ofNat 4)⟩,
    ⟨.empty, .histogram (histogramOf coarseSteps) .zero .zero⟩]

def snapshotOf (samples : List Sample) : Snapshot :=
  [⟨"errors", "", .counter, []⟩, ⟨MetricName.apiResponseTime, "", .histogram, samples⟩,
    ⟨MetricName.apiResponseTime, "", .histogram, []⟩]

theorem responseTimes_tallied_mixed :
    Tallied (responseHistograms (snapshotOf mixedSamples))
        (responseTimes (snapshotOf mixedSamples)) ∧
      (responseTimes (snapshotOf mixedSamples.reverse)).map Bar.shown =
        (responseTimes (snapshotOf mixedSamples)).map Bar.shown ∧
      ((responseTimes (snapshotOf mixedSamples)).map Bar.count).sum = 17 := by
  have layouts : responseHistograms (snapshotOf mixedSamples) =
      [histogramOf fineSteps, histogramOf coarseSteps] := by decide +kernel
  obtain ⟨tallied, reordered, total⟩ :=
    responseTimes_tallied (snapshotOf mixedSamples) (by decide +kernel)
  refine ⟨tallied, reordered _ (List.reverse_perm mixedSamples), total [[3, 7, 9], [2, 2, 6, 8]] ?_ ?_⟩
  · rw [layouts]
    exact .cons (counted_histogramOf (by decide) (by decide))
      (.cons (counted_histogramOf (by decide) (by decide)) .nil)
  · decide

end Distribution

end ProxyMonitor
