import Mathlib.Data.List.Forall2
import ProxyMonitor.History
import ProxyMonitor.Proofs.Lookup

namespace ProxyMonitor

namespace Snapshot

def samples (snapshot : Snapshot) (name : String) : List Sample :=
  (snapshot.family? name).elim [] Family.samples

theorem family?_filter (snapshot : Snapshot) {name other : String} (different : other ≠ name) :
    Snapshot.family? (snapshot.filter (·.name != name)) other = snapshot.family? other := by
  rw [family?, List.find?_filter, family?]
  congr 1
  funext family
  by_cases named : family.name = other
  · simp [named, different]
  · simp [named]

end Snapshot

/-- A whole family, or its samples that have one value of a label. -/
structure Metric where
  family : String
  label? : Option (String × String)
  deriving DecidableEq

namespace Metric

def covers (metric : Metric) (sample : Sample) : Bool :=
  metric.label?.all fun (name, value) => sample.label? name == some value

/-- A snapshot without a metric: the families of other names, and what the metric does not cover
of its own. -/
def others (metric : Metric) (snapshot : Snapshot) : List Family × List Sample :=
  (snapshot.filter (·.name != metric.family),
    (snapshot.samples metric.family).filter (!metric.covers ·))

/-- Metrics with no sample in common: of different families, or of different values of a label. -/
inductive Apart : Metric → Metric → Prop where
  | families {metric other : Metric} (different : metric.family ≠ other.family) :
      Apart metric other
  | values {family name value otherValue : String} (different : value ≠ otherValue) :
      Apart ⟨family, some (name, value)⟩ ⟨family, some (name, otherValue)⟩

variable {changed : Metric} {snapshot edited : Snapshot}

theorem family?_congr {name : String} (different : changed.family ≠ name)
    (same : changed.others snapshot = changed.others edited) :
    snapshot.family? name = edited.family? name := by
  have families : snapshot.filter (·.name != changed.family) =
      edited.filter (·.name != changed.family) := congrArg Prod.fst same
  rw [← snapshot.family?_filter different.symm, families, edited.family?_filter different.symm]

theorem find?_samples_congr {family name value otherValue : String}
    (different : value ≠ otherValue)
    (same : others ⟨family, some (name, value)⟩ snapshot =
      others ⟨family, some (name, value)⟩ edited) :
    (snapshot.samples family).find? (·.label? name == some otherValue) =
      (edited.samples family).find? (·.label? name == some otherValue) := by
  have kept : ∀ all : List Sample,
      all.find? (·.label? name == some otherValue) =
        (all.filter (!covers ⟨family, some (name, value)⟩ ·)).find?
          (·.label? name == some otherValue) := by
    intro all
    rw [List.find?_filter]
    congr 1
    funext sample
    by_cases wanted : sample.label? name = some otherValue
    · simp [covers, wanted, different.symm]
    · simp [wanted]
  rw [kept, kept (edited.samples family)]
  exact congrArg _ (congrArg Prod.snd same)

end Metric

theorem MetricView.nested_value (snapshot : Snapshot) (name label value : String) :
    (nested snapshot name label value).value? =
      ((snapshot.samples name).find? (·.label? label == some value)).map Sample.number := by
  rw [value?, nested, Snapshot.samples]
  cases snapshot.family? name <;> rfl

namespace Series

def metric : Series → Metric
  | requestRate => ⟨MetricName.apiRequests, none⟩
  | residentMemory => ⟨MetricName.residentMemory, none⟩
  | fetchedRate => ⟨MetricName.traffic, some ("metric", "fetched")⟩
  | servedRate => ⟨MetricName.traffic, some ("metric", "served")⟩

theorem metric_apart {series other : Series} (different : series ≠ other) :
    series.metric.Apart other.metric := by
  cases series <;> cases other
  case fetchedRate.servedRate => exact .values (by decide)
  case servedRate.fetchedRate => exact .values (by decide)
  all_goals first | exact absurd rfl different | exact .families (by decide)

end Series

namespace Binary64

theorem same_zero_iff (x : Binary64) : x.same zero = true ↔ x = zero ∨ x = negativeZero := by
  cases x with
  | nan s => simp [same, position?, zero, negativeZero]
  | infinite s => cases s <;> simp [same, position?, signed, zero, negativeZero] <;> decide +kernel
  | finite s rank =>
      have named : ∀ t, finite s rank = finite t ⟨0, by decide⟩ ↔ s = t ∧ rank.val = 0 := by
        intro t
        rw [finite.injEq, Fin.ext_iff]
      rw [zero, negativeZero, named, named]
      cases s <;> simp [same, position?, signed]

end Binary64

namespace History

theorem traffic?_congr {snapshot edited : Snapshot} {metric : String}
    (same : (snapshot.samples MetricName.traffic).find? (·.label? "metric" == some metric) =
      (edited.samples MetricName.traffic).find? (·.label? "metric" == some metric)) :
    traffic? snapshot metric = traffic? edited metric := by
  rw [traffic?, traffic?, MetricView.nested_value, MetricView.nested_value, same]

def reading (history : History) (snapshot : Snapshot) : Series → Option Binary64
  | .requestRate => history.totalRequests? snapshot
  | .residentMemory => memory? snapshot
  | .fetchedRate => traffic? snapshot "fetched"
  | .servedRate => traffic? snapshot "served"

theorem reading_congr_of_family (history : History) {series : Series} {snapshot edited : Snapshot}
    (same : snapshot.family? series.metric.family = edited.family? series.metric.family) :
    history.reading snapshot series = history.reading edited series := by
  cases series with
  | requestRate =>
      simp only [Series.metric] at same
      have counts : snapshot.apiRequests = edited.apiRequests := by
        funext method
        rw [Snapshot.apiRequests, Snapshot.apiRequests, MetricView.nested, MetricView.nested, same]
      rw [reading, reading, totalRequests?, totalRequests?, same, counts]
  | residentMemory =>
      simp only [Series.metric] at same
      rw [reading, reading, memory?, memory?, MetricView.first, MetricView.first, same]
  | fetchedRate =>
      simp only [Series.metric] at same
      rw [reading, reading, traffic?, traffic?, MetricView.nested, MetricView.nested, same]
  | servedRate =>
      simp only [Series.metric] at same
      rw [reading, reading, traffic?, traffic?, MetricView.nested, MetricView.nested, same]

theorem reading_congr (history : History) {changed : Metric} {series : Series}
    {snapshot edited : Snapshot} (apart : changed.Apart series.metric)
    (same : changed.others snapshot = changed.others edited) :
    history.reading snapshot series = history.reading edited series := by
  generalize drawn : series.metric = metric at apart
  cases apart with
  | families different =>
      exact history.reading_congr_of_family (Metric.family?_congr (drawn ▸ different) same)
  | values different =>
      have found := Metric.find?_samples_congr different same
      cases series with
      | requestRate => cases drawn
      | residentMemory => cases drawn
      | fetchedRate => cases drawn; exact traffic?_congr found
      | servedRate => cases drawn; exact traffic?_congr found

end History

/-- What a method adds to the total: nothing when its requests are not in the snapshot. -/
inductive CountsRequests (snapshot : Snapshot) (method : String) : Binary64 → Prop where
  | given {x : Binary64} (gives : snapshot.Gives "api_requests" "rpc_method" method x) :
      CountsRequests snapshot method x
  | missing (lacking : ∀ x, ¬ snapshot.Gives "api_requests" "rpc_method" method x) :
      CountsRequests snapshot method .zero

/-- What each series reads off a snapshot, if anything. -/
inductive Reads (methods : List String) (snapshot : Snapshot) :
    Series → Option Binary64 → Prop where
  | requests (present : ∃ family ∈ snapshot, family.name = "api_requests")
      {counts : List Binary64} (each : List.Forall₂ (CountsRequests snapshot) methods counts) :
      Reads methods snapshot .requestRate (some (counts.foldl .add .negativeZero))
  | noRequests (absent : ∀ family ∈ snapshot, family.name ≠ "api_requests") :
      Reads methods snapshot .requestRate none
  | memory {x : Binary64} (gives : snapshot.GivesFirst "process_resident_memory_bytes" x)
      (nonzero : x ≠ .zero ∧ x ≠ .negativeZero) :
      Reads methods snapshot .residentMemory (some x)
  | noMemory (zero : ∀ x, snapshot.GivesFirst "process_resident_memory_bytes" x →
      x = .zero ∨ x = .negativeZero) : Reads methods snapshot .residentMemory none
  | fetched {x : Binary64} (gives : snapshot.Gives "traffic" "metric" "fetched" x) :
      Reads methods snapshot .fetchedRate (some x)
  | noFetched (lacking : ∀ x, ¬ snapshot.Gives "traffic" "metric" "fetched" x) :
      Reads methods snapshot .fetchedRate none
  | served {x : Binary64} (gives : snapshot.Gives "traffic" "metric" "served" x) :
      Reads methods snapshot .servedRate (some x)
  | noServed (lacking : ∀ x, ¬ snapshot.Gives "traffic" "metric" "served" x) :
      Reads methods snapshot .servedRate none

section

variable {methods : List String} {snapshot : Snapshot}

theorem countsRequests_iff {method : String} {x : Binary64} :
    CountsRequests snapshot method x ↔ snapshot.apiRequests method = x := by
  rw [Snapshot.apiRequests, MetricView.valueOr]
  cases found : (MetricView.nested snapshot MetricName.apiRequests "rpc_method" method).value? with
  | none =>
      have lacking : ∀ y, ¬ snapshot.Gives "api_requests" "rpc_method" method y := fun y gives =>
        absurd (found.symm.trans (Snapshot.nested_value_eq_some_iff.mpr gives)) nofun
      constructor
      · rintro (gives | -)
        · exact absurd gives (lacking x)
        · rfl
      · rintro rfl
        exact .missing lacking
  | some y =>
      have gives := Snapshot.nested_value_eq_some_iff.mp found
      constructor
      · rintro (again | lacking)
        · exact (Option.some.inj
            (found.symm.trans (Snapshot.nested_value_eq_some_iff.mpr again)))
        · exact absurd gives (lacking y)
      · rintro rfl
        exact .given gives

theorem family?_eq_none_iff {name : String} :
    snapshot.family? name = none ↔ ∀ family ∈ snapshot, family.name ≠ name := by
  simp only [Snapshot.family?, List.find?_eq_none, beq_iff_eq, ne_eq]

theorem memory?_eq_some_iff {x : Binary64} :
    History.memory? snapshot = some x ↔
      snapshot.GivesFirst "process_resident_memory_bytes" x ∧ x ≠ .zero ∧ x ≠ .negativeZero := by
  rw [History.memory?, Option.filter_eq_some_iff, Snapshot.first_value_eq_some_iff,
    Bool.not_eq_true', ← Bool.not_eq_true, Binary64.same_zero_iff, not_or]
  rfl

theorem traffic?_eq_some_iff {metric : String} {x : Binary64} :
    History.traffic? snapshot metric = some x ↔ snapshot.Gives "traffic" "metric" metric x :=
  Snapshot.nested_value_eq_some_iff

theorem memory?_eq_none_iff :
    History.memory? snapshot = none ↔ ∀ x,
      snapshot.GivesFirst "process_resident_memory_bytes" x → x = .zero ∨ x = .negativeZero := by
  simp only [Option.eq_none_iff_forall_ne_some, ne_eq, memory?_eq_some_iff, not_and, not_not,
    or_iff_not_imp_left]

theorem traffic?_eq_none_iff {metric : String} :
    History.traffic? snapshot metric = none ↔
      ∀ x, ¬ snapshot.Gives "traffic" "metric" metric x := by
  simp only [Option.eq_none_iff_forall_ne_some, ne_eq, traffic?_eq_some_iff]

theorem forall₂_countsRequests_iff {counts : List Binary64} :
    List.Forall₂ (CountsRequests snapshot) methods counts ↔
      methods.map snapshot.apiRequests = counts := by
  have pointwise : CountsRequests snapshot = fun method x => snapshot.apiRequests method = x := by
    funext method x
    exact propext countsRequests_iff
  rw [pointwise, ← List.forall₂_map_left_iff (R := Eq), List.forall₂_eq_eq_eq]

theorem reading_of_reads (history : History) {series : Series} {value : Option Binary64}
    (reads : Reads history.apiMethods snapshot series value) :
    history.reading snapshot series = value := by
  cases reads with
  | requests present each =>
      obtain ⟨family, found⟩ := Option.ne_none_iff_exists'.mp
        (mt family?_eq_none_iff.mp fun absent =>
          present.elim fun family among => absent family among.1 among.2)
      rw [History.reading, History.totalRequests?, ← forall₂_countsRequests_iff.mp each]
      exact congrArg _ found
  | noRequests absent =>
      rw [History.reading, History.totalRequests?, MetricName.apiRequests,
        family?_eq_none_iff.mpr absent, Option.map_none]
  | memory gives nonzero => exact memory?_eq_some_iff.mpr ⟨gives, nonzero⟩
  | noMemory zero => exact memory?_eq_none_iff.mpr zero
  | fetched gives => exact traffic?_eq_some_iff.mpr gives
  | noFetched lacking => exact traffic?_eq_none_iff.mpr lacking
  | served gives => exact traffic?_eq_some_iff.mpr gives
  | noServed lacking => exact traffic?_eq_none_iff.mpr lacking

theorem reads_reading (history : History) (series : Series) :
    Reads history.apiMethods snapshot series (history.reading snapshot series) := by
  cases series with
  | requestRate =>
      rw [History.reading, History.totalRequests?]
      cases found : snapshot.family? MetricName.apiRequests with
      | none => exact .noRequests (family?_eq_none_iff.mp found)
      | some family =>
          obtain ⟨before, after, split, named, -⟩ := Snapshot.family?_eq_some_iff.mp found
          exact .requests ⟨family, split ▸ List.mem_append_cons_self, named⟩
            (forall₂_countsRequests_iff.mpr rfl)
  | residentMemory =>
      rw [History.reading]
      cases found : History.memory? snapshot with
      | none => exact .noMemory (memory?_eq_none_iff.mp found)
      | some x =>
          obtain ⟨gives, nonzero⟩ := memory?_eq_some_iff.mp found
          exact .memory gives nonzero
  | fetchedRate =>
      rw [History.reading]
      cases found : History.traffic? snapshot "fetched" with
      | none => exact .noFetched (traffic?_eq_none_iff.mp found)
      | some x => exact .fetched (traffic?_eq_some_iff.mp found)
  | servedRate =>
      rw [History.reading]
      cases found : History.traffic? snapshot "served" with
      | none => exact .noServed (traffic?_eq_none_iff.mp found)
      | some x => exact .served (traffic?_eq_some_iff.mp found)

theorem reads_iff (history : History) {series : Series} {value : Option Binary64} :
    Reads history.apiMethods snapshot series value ↔ history.reading snapshot series = value := by
  constructor
  · exact reading_of_reads history
  · rintro rfl
    exact reads_reading history series

end

end ProxyMonitor
