import ProxyMonitor.Lookup

namespace ProxyMonitor

/-- The first entry with a property. -/
def FirstWith {α : Type} (xs : List α) (P : α → Prop) (x : α) : Prop :=
  ∃ before after, xs = before ++ x :: after ∧ P x ∧ ∀ other ∈ before, ¬ P other

theorem find?_eq_some_iff_firstWith {α : Type} {xs : List α} {p : α → Bool} {P : α → Prop}
    (same : ∀ x, p x = true ↔ P x) {x : α} : xs.find? p = some x ↔ FirstWith xs P x := by
  simp only [List.find?_eq_some_iff_append, FirstWith, same, Bool.not_eq_true', ← Bool.not_eq_true]
  constructor
  · rintro ⟨here, before, after, split, none⟩
    exact ⟨before, after, split, here, none⟩
  · rintro ⟨before, after, split, here, none⟩
    exact ⟨here, before, after, split, none⟩

namespace Snapshot

/-- The first family of the name begins with a sample of this number. -/
def GivesFirst (snapshot : Snapshot) (name : String) (x : Binary64) : Prop :=
  ∃ family, FirstWith snapshot (·.name = name) family ∧
    ∃ sample rest, family.samples = sample :: rest ∧ sample.number = x

/-- The first sample with the label, in the first family of the name, has this number. -/
def Gives (snapshot : Snapshot) (name label value : String) (x : Binary64) : Prop :=
  ∃ family, FirstWith snapshot (·.name = name) family ∧
    ∃ sample, FirstWith family.samples (·.label? label = some value) sample ∧ sample.number = x

variable {snapshot : Snapshot} {name label value : String} {x : Binary64}

theorem family?_eq_some_iff {family : Family} :
    snapshot.family? name = some family ↔ FirstWith snapshot (·.name = name) family :=
  find?_eq_some_iff_firstWith fun _ => beq_iff_eq

theorem withLabel?_eq_some_iff {family : Family} {sample : Sample} :
    family.withLabel? label value = some sample ↔
      FirstWith family.samples (·.label? label = some value) sample :=
  find?_eq_some_iff_firstWith fun _ => beq_iff_eq

theorem first_value_eq_some_iff :
    (MetricView.first snapshot name).value? = some x ↔ snapshot.GivesFirst name x := by
  simp only [MetricView.first, MetricView.value?, Option.map_eq_some_iff, Option.bind_eq_some_iff,
    family?_eq_some_iff, List.head?_eq_some_iff]
  constructor
  · rintro ⟨sample, ⟨family, first, rest, samples⟩, number⟩
    exact ⟨family, first, sample, rest, samples, number⟩
  · rintro ⟨family, first, sample, rest, samples, number⟩
    exact ⟨sample, ⟨family, first, rest, samples⟩, number⟩

theorem nested_value_eq_some_iff :
    (MetricView.nested snapshot name label value).value? = some x ↔
      snapshot.Gives name label value x := by
  simp only [MetricView.nested, MetricView.value?, Option.map_eq_some_iff, Option.bind_eq_some_iff,
    family?_eq_some_iff, withLabel?_eq_some_iff]
  constructor
  · rintro ⟨sample, ⟨family, first, found⟩, number⟩
    exact ⟨family, first, sample, found, number⟩
  · rintro ⟨family, first, sample, found, number⟩
    exact ⟨sample, ⟨family, first, found⟩, number⟩

end Snapshot

end ProxyMonitor
