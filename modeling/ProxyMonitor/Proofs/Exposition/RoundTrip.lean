import ProxyMonitor.Proofs.Exposition.Recovery

namespace ProxyMonitor.Exposition

/-- Families that are written without loss. -/
structure Lossless (families : List Family) : Prop where
  distinct : (families.map Family.name).Nodup
  names : ∀ family ∈ families, MetricName family.name.toList
  help : ∀ family ∈ families, HelpText family.help.toList
  labels : ∀ family ∈ families, ∀ sample ∈ family.samples, ∀ pair ∈ sample.labels.pairs,
    LabelName pair.1.toList
  singles : ∀ family ∈ families, family.kind ≠ .histogram → family.kind ≠ .summary →
    ∀ sample ∈ family.samples, groupKind? sample.value = none
  shown : ∀ family ∈ families, family.kind = .unknown → family.help ≠ "" ∨ family.samples ≠ []
  groups : ∀ family ∈ families, family.kind = .histogram ∨ family.kind = .summary →
    ∀ sample ∈ family.samples, groupKind? sample.value = some family.kind
  apart : ∀ family ∈ families, family.kind = .histogram ∨ family.kind = .summary →
    (family.samples.map Sample.labels).Nodup
  unmarked : ∀ family ∈ families, family.kind = .histogram ∨ family.kind = .summary →
    ∀ sample ∈ family.samples, GroupLabels sample.labels
  suffixes : ∀ family ∈ families, family.kind = .histogram ∨ family.kind = .summary →
    ∀ suffix ∈ ["_bucket", "_sum", "_count"], family.name ++ suffix ∉ families.map Family.name

namespace Lossless

variable {families : List Family}

theorem kindsOf_name (h : Lossless families) {family : Family} (member : family ∈ families) :
    kindsOf families family.name = family.kind := by
  apply kindIn_of_mem
  · rw [headings, List.map_map]
    exact h.distinct
  · exact List.mem_map.mpr ⟨family, member, rfl⟩

theorem exists_family (name : String) (known : kindsOf families name ≠ .unknown) :
    ∃ family ∈ families, family.name = name ∧ family.kind = kindsOf families name := by
  obtain ⟨family, member, same⟩ := List.mem_map.mp (mem_of_kindIn known)
  obtain ⟨sameName, sameKind⟩ := Prod.mk.inj same
  exact ⟨family, member, sameName, sameKind⟩

theorem clear (h : Lossless families) {family : Family} (member : family ∈ families)
    (grouped : family.kind = .histogram ∨ family.kind = .summary) (part : GroupPart) :
    part.Clear (kindsOf families) family.name := by
  have free : ∀ suffix ∈ ["_bucket", "_sum", "_count"],
      kindsOf families (family.name ++ suffix) ≠ .summary := by
    intro suffix listed summary
    obtain ⟨other, inside, same, -⟩ :=
      exists_family (family.name ++ suffix) (by rw [summary]; decide)
    exact h.suffixes family member grouped suffix listed (List.mem_map.mpr ⟨other, inside, same⟩)
  cases part with
  | quantile level => trivial
  | bucket upperBound => exact free "_bucket" (by decide)
  | sum => exact free "_sum" (by decide)
  | count => exact free "_count" (by decide)

theorem loose (h : Lossless families) {family : Family} (member : family ∈ families)
    (noSummary : family.kind ≠ .summary) : Loose (kindsOf families) family.name := by
  intro base part line fits
  have kind := fits.known
  obtain ⟨other, inside, rfl, same⟩ := exists_family base
    (by rcases kind with kind | kind <;> rw [kind] <;> decide)
  rw [← same] at kind
  have listed : family.name ∈ families.map Family.name := List.mem_map_of_mem member
  cases part with
  | quantile level =>
      have sameName : other.name = family.name := line
      rw [sameName, h.kindsOf_name member] at fits
      exact noSummary fits
  | bucket upperBound =>
      rw [← line] at listed
      exact h.suffixes other inside kind "_bucket" (by decide) listed
  | sum =>
      rw [← line] at listed
      exact h.suffixes other inside kind "_sum" (by decide) listed
  | count =>
      rw [← line] at listed
      exact h.suffixes other inside kind "_count" (by decide) listed

theorem recoverable (h : Lossless families) : Recoverable families where
  distinct := h.distinct
  writable := fun family member =>
    ⟨h.names family member, h.help family member, h.labels family member⟩
  shown := h.shown
  groups := by
    intro family member
    by_cases grouped : family.kind = .histogram ∨ family.kind = .summary
    · refine (List.pairwise_map.mp (h.apart family member grouped)).filterMap groupKey? ?_
      intro first second different key mine other yours same
      obtain ⟨_, -, rfl⟩ := Option.map_eq_some_iff.mp mine
      obtain ⟨_, -, rfl⟩ := Option.map_eq_some_iff.mp yours
      exact different (Labels.ext_pairs same)
    · obtain ⟨noHistogram, noSummary⟩ := not_or.mp grouped
      have none : family.samples.filterMap groupKey? = [] := by
        rw [List.filterMap_eq_nil_iff]
        intro sample inside
        rw [groupKey?, h.singles family member noHistogram noSummary sample inside]
        rfl
      rw [none]
      exact .nil
  told := by
    intro family member sample inside
    by_cases grouped : family.kind = .histogram ∨ family.kind = .summary
    · have clear := h.clear member grouped
      refine .group (h.groups family member grouped sample inside)
        (h.unmarked family member grouped sample inside) (fun part _ => .inl (clear part.1)) ?_
      have kind := h.groups family member grouped sample inside
      obtain ⟨part, held⟩ := exists_part kind
      exact ⟨part, held, clear part.1⟩
    · obtain ⟨noHistogram, noSummary⟩ := not_or.mp grouped
      have none := h.singles family member noHistogram noSummary sample inside
      cases alone : sample.value with
      | single value => exact .single alone (h.loose member noSummary)
      | histogram => rw [alone] at none; cases none
      | summary => rw [alone] at none; cases none

theorem unshadowed (h : Lossless families) : Unshadowed families := by
  intro family member sample inside part held
  by_cases grouped : family.kind = .histogram ∨ family.kind = .summary
  · exact h.clear member grouped part.1
  · obtain ⟨noHistogram, noSummary⟩ := not_or.mp grouped
    have none := h.singles family member noHistogram noSummary sample inside
    cases alone : sample.value with
    | single value => rw [alone] at held; cases held
    | histogram => rw [alone] at none; cases none
    | summary => rw [alone] at none; cases none

end Lossless

/-- Reading what was written of families skips no line and gives them back, in order and with all
their samples, the sign of a NaN apart. -/
theorem read_render (families : List Family) (h : Lossless families) :
    read (render families) = ⟨.ok (families.map Family.canonical), []⟩ :=
  h.recoverable.read_whole h.unshadowed

def assorted : List Family :=
  [⟨"api:calls", "Calls by method,\nescaped as \\n", .counter,
      [⟨.ofPairs [("method", "a\"b\\\n\x7d,"), ("le", "1")], .single .negativeZero⟩,
        ⟨.empty, .single (.infinite true)⟩]⟩,
    ⟨"delay", "", .histogram,
      [⟨.ofPairs [("zone", "")],
          .histogram [⟨.zero, .nan true⟩, ⟨.infinite false, .zero⟩] (.nan false) .zero⟩,
        ⟨.empty, .histogram [] .zero .zero⟩]⟩,
    ⟨"delay_max", "\n", .gauge, []⟩,
    ⟨"size", "", .summary, [⟨.empty, .summary [⟨.nan true, .zero⟩] .zero .negativeZero⟩]⟩,
    ⟨"note", "only a help", .unknown, []⟩]

theorem read_render_assorted :
    Lossless assorted ∧ read (render assorted) = ⟨.ok (assorted.map Family.canonical), []⟩ := by
  have lossless : Lossless assorted := by
    constructor <;> decide +kernel
  exact ⟨lossless, read_render assorted lossless⟩

end ProxyMonitor.Exposition
