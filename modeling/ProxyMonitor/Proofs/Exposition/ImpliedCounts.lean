import ProxyMonitor.Proofs.Exposition.Series
import ProxyMonitor.Proofs.NumberOrder

/-! A histogram whose lines tell no count has the count of its last bucket line. That is the count of
the infinite bucket where the bounds ascend, but not in every order of the lines. -/

namespace ProxyMonitor

namespace Exposition

def bucketsOn (lines : List Taken) : List Bucket := lines.filterMap fun line => line.entry.bucket?

theorem getLast_of_ascending {buckets : List Bucket} {total : Bucket}
    (sole : buckets.filter (·.upperBound = .infinite false) = [total])
    (ascending : buckets.Pairwise fun a b => a.upperBound.le b.upperBound = true) :
    buckets.getLast? = some total := by
  have mem_iff (bucket : Bucket) :
      bucket ∈ buckets ∧ bucket.upperBound = .infinite false ↔ bucket = total := by
    have among : bucket ∈ buckets.filter (·.upperBound = .infinite false) ↔ bucket = total := by
      rw [sole, List.mem_singleton]
    simpa using among
  obtain ⟨inside, infinite⟩ := (mem_iff total).mpr rfl
  cases buckets using List.reverseRecOn with
  | nil => cases inside
  | append_singleton before last =>
      rw [List.getLast?_concat, (mem_iff last).mp ⟨List.mem_append_right _ List.mem_cons_self, ?_⟩]
      rcases List.mem_append.mp inside with earlier | here
      · apply Binary64.eq_infinite_of_le
        rw [← infinite]
        exact (List.pairwise_append.mp ascending).2.2 total earlier last List.mem_cons_self
      · rw [← List.mem_singleton.mp here, infinite]

/-- A group of bucket lines without a count line. One line has the infinite bound: the total. -/
structure Uncounted (lines : List (List Char)) (family : Family) (place : Nat)
    (portion : Portion Taken) (total : Bucket) : Prop where
  histogram : family.kind ≠ .summary
  here : (linesBehind lines family.name)[place]? = some portion
  group : portion.first.target.isSome
  uncounted : ∀ line ∈ portion.items, line.entry.count? = none
  sole : (bucketsOn portion.items).filter (·.upperBound = .infinite false) = [total]

structure CountedByLast (buckets : List Bucket) (total : Bucket) (sample : Sample) : Prop where
  shown : sample.buckets? = some buckets
  last : buckets.getLast?.map Bucket.cumulative = some sample.number
  /-- The count is that of the infinite bucket only where the last line has the same one. -/
  total_iff : sample.number = total.cumulative ↔
    buckets.getLast?.map Bucket.cumulative = some total.cumulative
  ascending : (buckets.Pairwise fun a b => a.upperBound.le b.upperBound = true) →
    sample.number = total.cumulative

theorem sampleFrom_of_uncounted {kind : MetricKind} {portion : Portion Taken}
    (histogram : kind ≠ .summary) (group : portion.first.target.isSome)
    (uncounted : ∀ line ∈ portion.items, line.entry.count? = none) :
    (sampleFrom kind portion).buckets? = some (bucketsOn portion.items) ∧
      (sampleFrom kind portion).number =
        ((bucketsOn portion.items).getLast?.map Bucket.cumulative).getD .zero := by
  have items : (portion.map Taken.entry).items = portion.items.map Taken.entry := rfl
  have grouped : (portion.map Taken.entry).first.part.isNone = false := by
    obtain ⟨target, known⟩ := Option.isSome_iff_exists.mp group
    rw [show (portion.map Taken.entry).first = portion.first.entry from rfl, Taken.entry, known]
    rfl
  have noCount : (portion.map Taken.entry).items.filterMap Entry.count? = [] := by
    rw [items, List.filterMap_map]
    exact List.filterMap_eq_nil_iff.mpr uncounted
  have buckets : (portion.map Taken.entry).items.filterMap Entry.bucket? =
      bucketsOn portion.items := by
    rw [items, List.filterMap_map]
    rfl
  rw [sampleFrom, sampleOf]
  simp [Sample.buckets?, Sample.number, grouped, histogram, noCount, buckets]

/-- The count of a group without a count line is that of its last bucket line. -/
theorem read_counts_last (text : String) (families : List Family)
    (parsed : (read text).families = .ok families) :
    ∀ family ∈ families, ∀ place portion total,
      Uncounted (Text.lines text.toList) family place portion total →
        ∃ sample, family.samples[place]? = some sample ∧
          CountedByLast (bucketsOn portion.items) total sample := by
  intro family member place portion total uncounted
  obtain ⟨⟨last, shows, rfl⟩, -⟩ := read_heard parsed
  obtain ⟨shown, number⟩ :=
    sampleFrom_of_uncounted uncounted.histogram uncounted.group uncounted.uncounted
  refine ⟨sampleFrom family.kind portion, ?_, ?_⟩
  · rw [samples_of_shows shows member, List.getElem?_map, uncounted.here]
    rfl
  · have inside : total ∈ bucketsOn portion.items := by
      have kept : total ∈ (bucketsOn portion.items).filter (·.upperBound = .infinite false) := by
        rw [uncounted.sole]
        exact List.mem_cons_self
      exact (List.mem_filter.mp kept).1
    have counted : (bucketsOn portion.items).getLast?.map Bucket.cumulative =
        some (sampleFrom family.kind portion).number := by
      rw [number, List.getLast?_eq_some_getLast (List.ne_nil_of_mem inside)]
      rfl
    refine ⟨shown, counted, ?_, fun ascending => ?_⟩
    · rw [counted, Option.some_inj]
    · rw [number, getLast_of_ascending uncounted.sole ascending]
      rfl

def groupShown (portion : Portion Taken) : Bool × Bool × List Bucket :=
  (portion.first.target.isSome, portion.items.all (·.entry.count?.isNone), bucketsOn portion.items)

theorem exists_uncounted {lines : List (List Char)} {last : Builder}
    (shows : last.Shows (sketched (heard lines))) {name : String} {place : Nat}
    {buckets : List Bucket} {total : Bucket}
    (spoken : name ∈ ((heard lines).map Statement.family).eraseDups)
    (kind : declaredKind lines name ≠ .summary)
    (behind : (linesBehind lines name)[place]?.map groupShown = some (true, true, buckets))
    (sole : buckets.filter (·.upperBound = .infinite false) = [total]) :
    ∃ family ∈ last.finish, ∃ portion, Uncounted lines family place portion total ∧
      bucketsOn portion.items = buckets := by
  obtain ⟨family, member, rfl⟩ : ∃ family ∈ last.finish, family.name = name := by
    rwa [← List.mem_map, names_of_shows shows]
  obtain ⟨portion, here, seen⟩ := Option.map_eq_some_iff.mp behind
  simp only [groupShown, Prod.mk.injEq, List.all_eq_true, Option.isNone_iff_eq_none] at seen
  obtain ⟨group, uncounted, rfl⟩ := seen
  refine ⟨family, member, portion, ⟨?_, here, group, uncounted, sole⟩, rfl⟩
  rwa [show family.kind = lastKind (heard lines) family.name from
    congrArg Family.kind (eq_familyOf shows member), lastKind_heard_all]

def ascendingLines : List (List Char) :=
  ["# TYPE wait histogram", "wait_bucket\x7ble=\"1\",m=\"a\"\x7d 2",
    "wait_bucket\x7ble=\"1\",m=\"b\"\x7d 1", "wait_sum\x7bm=\"a\"\x7d 7",
    "wait_bucket\x7ble=\"+Inf\",m=\"b\"\x7d 1",
    "wait_bucket\x7ble=\"+Inf\",m=\"a\"\x7d 5"].map String.toList

theorem lines_ascending : Text.lines (textOf ascendingLines).toList = ascendingLines :=
  lines_textOf (by decide +kernel)

theorem read_counts_last_ascending :
    ∃ families, (read (textOf ascendingLines)).families = .ok families ∧
      ∃ family ∈ families, ∃ portion,
        Uncounted ascendingLines family 0 portion ⟨.infinite false, .ofNat 5⟩ ∧
        ∃ sample, family.samples[0]? = some sample ∧ sample.number = .ofNat 5 := by
  obtain ⟨families, parsed⟩ : ∃ families, (read (textOf ascendingLines)).families = .ok families := by
    rw [read, readLines_ok_iff, lines_ascending]
    decide +kernel
  have counted := read_counts_last (textOf ascendingLines) families parsed
  obtain ⟨⟨last, shows, rfl⟩, -⟩ := read_heard parsed
  rw [lines_ascending] at shows counted
  obtain ⟨family, member, portion, uncounted, buckets⟩ :=
    @exists_uncounted _ _ shows "wait" 0 [⟨.ofNat 1, .ofNat 2⟩, ⟨.infinite false, .ofNat 5⟩]
      ⟨.infinite false, .ofNat 5⟩ (by decide +kernel) (by decide +kernel) (by decide +kernel)
      (by decide +kernel)
  obtain ⟨sample, here, count⟩ := counted family member 0 portion _ uncounted
  have ascending : (bucketsOn portion.items).Pairwise fun a b =>
      a.upperBound.le b.upperBound = true := by
    rw [buckets]
    decide +kernel
  refine ⟨last.finish, parsed, family, member, portion, uncounted, sample, here, ?_⟩
  rw [count.ascending ascending]

def infiniteFirstLines : List (List Char) :=
  ["# TYPE wait histogram", "wait_bucket\x7ble=\"+Inf\"\x7d 5",
    "wait_bucket\x7ble=\"1\"\x7d 2"].map String.toList

theorem lines_infiniteFirst : Text.lines (textOf infiniteFirstLines).toList = infiniteFirstLines :=
  lines_textOf (by decide +kernel)

/-- A group whose infinite bucket comes first does not have the count of that bucket. -/
theorem infinite_first_not_counted :
    ∃ families, (read (textOf infiniteFirstLines)).families = .ok families ∧
      ∃ family ∈ families, ∃ portion,
        Uncounted infiniteFirstLines family 0 portion ⟨.infinite false, .ofNat 5⟩ ∧
        ∃ sample, family.samples[0]? = some sample ∧ sample.number = .ofNat 2 ∧
          Binary64.ofNat 2 ≠ .ofNat 5 := by
  obtain ⟨families, parsed⟩ :
      ∃ families, (read (textOf infiniteFirstLines)).families = .ok families := by
    rw [read, readLines_ok_iff, lines_infiniteFirst]
    decide +kernel
  obtain ⟨⟨last, shows, rfl⟩, -⟩ := read_heard parsed
  rw [lines_infiniteFirst] at shows
  obtain ⟨family, member, portion, uncounted, buckets⟩ :=
    @exists_uncounted _ _ shows "wait" 0 [⟨.infinite false, .ofNat 5⟩, ⟨.ofNat 1, .ofNat 2⟩]
      ⟨.infinite false, .ofNat 5⟩ (by decide +kernel) (by decide +kernel) (by decide +kernel)
      (by decide +kernel)
  obtain ⟨-, number⟩ :=
    sampleFrom_of_uncounted uncounted.histogram uncounted.group uncounted.uncounted
  refine ⟨last.finish, parsed, family, member, portion, uncounted,
    sampleFrom family.kind portion, ?_, ?_, by decide +kernel⟩
  · rw [samples_of_shows shows member, List.getElem?_map, uncounted.here]
    rfl
  · rw [number, buckets, List.getLast?_cons_cons, List.getLast?_singleton, Option.map_some,
      Option.getD_some]

end Exposition

end ProxyMonitor
