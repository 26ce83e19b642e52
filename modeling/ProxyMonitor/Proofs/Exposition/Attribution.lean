import ProxyMonitor.Proofs.Exposition.Sketches

namespace ProxyMonitor.Exposition

namespace GroupPart

def lineName (family : String) : GroupPart → String
  | bucket _ => family ++ "_bucket"
  | quantile _ => family
  | sum => family ++ "_sum"
  | count => family ++ "_count"

/-- The label that the lines of a part have besides those of their group. -/
def mark? : GroupPart → Option (String × Binary64)
  | bucket upperBound => some ("le", upperBound)
  | quantile level => some ("quantile", level)
  | sum => none
  | count => none

def Fits (kind : MetricKind) : GroupPart → Prop
  | bucket _ => kind = .histogram
  | quantile _ => kind = .summary
  | sum => kind = .histogram ∨ kind = .summary
  | count => kind = .histogram ∨ kind = .summary

/-- The lines of a part are no quantiles of a summary that has their name. -/
def Clear (kinds : String → MetricKind) (family : String) : GroupPart → Prop
  | quantile _ => True
  | part => kinds (part.lineName family) ≠ .summary

theorem Fits.known {kind : MetricKind} {part : GroupPart} (h : part.Fits kind) :
    kind = .histogram ∨ kind = .summary := by
  cases part with
  | bucket upperBound => exact .inl h
  | quantile level => exact .inr h
  | sum => exact h
  | count => exact h

theorem Clear.imp {kinds changed : String → MetricKind} {family : String} {part : GroupPart}
    (h : part.Clear kinds family)
    (shadowed : changed (part.lineName family) = .summary →
      kinds (part.lineName family) = .summary) : part.Clear changed family := by
  cases part with
  | quantile level => trivial
  | bucket upperBound => exact mt shadowed h
  | sum => exact mt shadowed h
  | count => exact mt shadowed h

end GroupPart

def Loose (kinds : String → MetricKind) (name : String) : Prop :=
  ∀ (family : String) (part : GroupPart), part.lineName family = name → ¬ part.Fits (kinds family)

theorem stripSuffix_eq_some_iff {name suffix base : String} :
    Builder.stripSuffix? name suffix = some base ↔ name = base ++ suffix := by
  rw [Builder.stripSuffix?, ← String.toList_inj, String.toList_append]
  constructor
  · intro h
    split at h
    next ends =>
      obtain ⟨front, split⟩ := ends
      rw [Option.some.injEq, ← split, ← String.length_toList, ← split, ← String.length_toList,
        List.length_append, Nat.add_sub_cancel, List.take_left] at h
      rw [← h, String.toList_ofList, split]
    next => cases h
  · intro split
    rw [if_pos ⟨base.toList, split.symm⟩, ← String.length_toList, split, ← String.length_toList,
      List.length_append, Nat.add_sub_cancel, List.take_left, String.ofList_toList]

theorem append_ne_append {first second : String} {ending other : String}
    (apart : ending.toList.reverse.take 2 ≠ other.toList.reverse.take 2)
    (long : 2 ≤ ending.toList.length) (alsoLong : 2 ≤ other.toList.length) :
    first ++ ending ≠ second ++ other := by
  intro same
  have reversed := congrArg (fun name : String => name.toList.reverse.take 2) same
  simp only [String.toList_append, List.reverse_append] at reversed
  rw [List.take_append_of_le_length (by rwa [List.length_reverse]),
    List.take_append_of_le_length (by rwa [List.length_reverse])] at reversed
  exact apart reversed

theorem suffix_target_iff {name : String} {target : GroupTarget} :
    (match Builder.stripSuffix? name "_sum" with
      | some base => some ⟨base, .sum⟩
      | none => (Builder.stripSuffix? name "_count").map (⟨·, .count⟩)) = some target ↔
    (target.part = .sum ∨ target.part = .count) ∧ name = target.part.lineName target.family := by
  obtain ⟨family, part⟩ := target
  -- The suffixes differ in their last letters, so a name has at most one of them.
  cases total : Builder.stripSuffix? name "_sum" with
  | some base =>
      obtain rfl := stripSuffix_eq_some_iff.mp total
      constructor
      · intro same
        cases same
        exact ⟨.inl rfl, rfl⟩
      · intro given
        rcases given with ⟨rfl | rfl, same⟩
        · obtain rfl := (String.append_left_inj _).mp same
          rfl
        · exact absurd same (append_ne_append (by decide) (by decide) (by decide))
  | none =>
      simp only [Option.map_eq_some_iff, stripSuffix_eq_some_iff, GroupTarget.mk.injEq]
      constructor
      · intro given
        rcases given with ⟨base, rfl, rfl, rfl⟩
        exact ⟨.inr rfl, rfl⟩
      · intro given
        rcases given with ⟨rfl | rfl, rfl⟩
        · have strip : Builder.stripSuffix? (GroupPart.sum.lineName family) "_sum" = some family :=
            stripSuffix_eq_some_iff.mpr rfl
          rw [strip] at total
          cases total
        · exact ⟨family, rfl, rfl, rfl⟩

def bucketed? (kinds : String → MetricKind) (name : String) : Option String :=
  (Builder.stripSuffix? name "_bucket").filter (kinds · = .histogram)

def total? (kinds : String → MetricKind) (name : String) : Option GroupTarget :=
  let target : Option GroupTarget := match Builder.stripSuffix? name "_sum" with
    | some base => some ⟨base, .sum⟩
    | none => (Builder.stripSuffix? name "_count").map (⟨·, .count⟩)
  target.filter fun target => kinds target.family = .histogram ∨ kinds target.family = .summary

namespace SampleLine

variable (kinds : String → MetricKind) (line : SampleLine)

def marked? (label : String) : Option Binary64 := (Builder.readLabelValue line label).toOption

/-- The part of a group that a line is, if it is one; a part needs its mark. -/
def target? : Option (Option GroupTarget) :=
  if kinds line.name = .summary then
    (line.marked? "quantile").map fun level => some ⟨line.name, .quantile level⟩
  else match bucketed? kinds line.name with
    | some base => (line.marked? "le").map fun bound => some ⟨base, .bucket bound⟩
    | none => some (total? kinds line.name)

end SampleLine

theorem filter_congr_of_mem {α : Type} {o : Option α} {p q : α → Bool}
    (same : ∀ a, o = some a → p a = q a) : o.filter p = o.filter q := by
  cases o with
  | none => rfl
  | some a => rw [Option.filter_some, Option.filter_some, same a rfl]

section

variable {kinds : String → MetricKind} {name : String}

theorem bucketed_eq_some_iff {base : String} :
    bucketed? kinds name = some base ↔ name = base ++ "_bucket" ∧ kinds base = .histogram := by
  rw [bucketed?, Option.filter_eq_some_iff, stripSuffix_eq_some_iff, decide_eq_true_iff]

theorem total_eq_some_iff {target : GroupTarget} :
    total? kinds name = some target ↔
      (target.part = .sum ∨ target.part = .count) ∧
        name = target.part.lineName target.family ∧ target.part.Fits (kinds target.family) := by
  refine Option.filter_eq_some_iff.trans ((and_congr_left' suffix_target_iff).trans ?_)
  rw [decide_eq_true_iff, and_assoc]
  refine and_congr_right fun part => and_congr_right fun _ => ?_
  rcases part with sum | count
  · rw [sum]
    rfl
  · rw [count]
    rfl

theorem bucketed_of_total {family : String} {part : GroupPart}
    (total : part = .sum ∨ part = .count) : bucketed? kinds (part.lineName family) = none := by
  rw [Option.eq_none_iff_forall_ne_some]
  intro base found
  have bucket := (bucketed_eq_some_iff.mp found).1
  rcases total with rfl | rfl
  · exact append_ne_append (by decide) (by decide) (by decide) bucket
  · exact append_ne_append (by decide) (by decide) (by decide) bucket

end

namespace SampleLine

variable {kinds : String → MetricKind} {line : SampleLine} {family : String} {part : GroupPart}

theorem target_of_total (total : part = .sum ∨ part = .count)
    (name : line.name = part.lineName family) (fits : part.Fits (kinds family))
    (clear : kinds line.name ≠ .summary) :
    line.target? kinds = some (some ⟨family, part⟩) := by
  have noBucket : bucketed? kinds line.name = none := name ▸ bucketed_of_total total
  have target : total? kinds line.name = some ⟨family, part⟩ :=
    total_eq_some_iff.mpr ⟨total, name, fits⟩
  rw [target?, if_neg clear, noBucket, target]

theorem target_of_part (name : line.name = part.lineName family) (fits : part.Fits (kinds family))
    (clear : part.Clear kinds family)
    (marked : ∀ mark ∈ part.mark?, line.marked? mark.1 = some mark.2) :
    line.target? kinds = some (some ⟨family, part⟩) := by
  cases part with
  | quantile level =>
      have summary : kinds line.name = .summary := name ▸ fits
      rw [target?, if_pos summary, marked _ rfl, ← show line.name = family from name]
      rfl
  | bucket upperBound =>
      have other : kinds line.name ≠ .summary := name ▸ clear
      have base : bucketed? kinds line.name = some family := bucketed_eq_some_iff.mpr ⟨name, fits⟩
      simp only [target?, if_neg other, base, marked _ rfl]
      rfl
  | sum => exact target_of_total (.inl rfl) name fits (name ▸ clear)
  | count => exact target_of_total (.inr rfl) name fits (name ▸ clear)

theorem target_of_loose (loose : Loose kinds line.name) : line.target? kinds = some none := by
  have noQuantile : kinds line.name ≠ .summary := loose line.name (.quantile .zero) rfl
  have noBucket : bucketed? kinds line.name = none := by
    rw [Option.eq_none_iff_forall_ne_some]
    intro base found
    obtain ⟨name, kind⟩ := bucketed_eq_some_iff.mp found
    exact loose base (.bucket .zero) name.symm kind
  have noTotal : total? kinds line.name = none := by
    rw [Option.eq_none_iff_forall_ne_some]
    intro target found
    obtain ⟨-, name, fits⟩ := total_eq_some_iff.mp found
    exact loose target.family target.part name.symm fits
  rw [target?, if_neg noQuantile, noBucket, noTotal]

theorem loose_of_target (h : line.target? kinds = some none) : Loose kinds line.name := by
  rw [target?] at h
  split at h
  next => simp at h
  next noQuantile =>
    cases base : bucketed? kinds line.name with
    | some base => simp [base] at h
    | none =>
        simp only [base, Option.some.injEq] at h
        have noTotal : ∀ target, total? kinds line.name ≠ some target := by simp [h]
        intro family part name fits
        cases part with
        | quantile level => exact noQuantile (name ▸ fits)
        | bucket upperBound =>
            rw [bucketed_eq_some_iff.mpr ⟨name.symm, fits⟩] at base
            cases base
        | sum => exact noTotal ⟨family, .sum⟩ (total_eq_some_iff.mpr ⟨.inl rfl, name.symm, fits⟩)
        | count =>
            exact noTotal ⟨family, .count⟩ (total_eq_some_iff.mpr ⟨.inr rfl, name.symm, fits⟩)

theorem part_of_target (h : line.target? kinds = some (some ⟨family, part⟩)) :
    line.name = part.lineName family ∧ part.Fits (kinds family) ∧ part.Clear kinds family ∧
      ∀ mark ∈ part.mark?, line.marked? mark.1 = some mark.2 := by
  rw [target?] at h
  split at h
  next summary =>
    obtain ⟨level, marked, same⟩ := Option.map_eq_some_iff.mp h
    cases same
    exact ⟨rfl, summary, trivial, fun mark held => Option.some.inj held ▸ marked⟩
  next other =>
    cases found : bucketed? kinds line.name with
    | some base =>
        simp only [found] at h
        obtain ⟨bound, marked, same⟩ := Option.map_eq_some_iff.mp h
        cases same
        obtain ⟨name, fits⟩ := bucketed_eq_some_iff.mp found
        rw [name] at other
        exact ⟨name, fits, other, fun mark held => Option.some.inj held ▸ marked⟩
    | none =>
        simp only [found, Option.some.injEq] at h
        obtain ⟨total, name, fits⟩ := total_eq_some_iff.mp h
        rw [name] at other
        rcases total with rfl | rfl <;> exact ⟨name, fits, other, by simp [GroupPart.mark?]⟩

end SampleLine

namespace Builder

variable {b : Builder} {line : SampleLine}

theorem kind_eq_some_iff {name : String} {kind : MetricKind} (known : kind ≠ .unknown) :
    b.kind? name = some kind ↔ b.kindOf name = kind := by
  rw [kindOf]
  cases b.kind? name with
  | none => simpa using known.symm
  | some other => simp

theorem bucketBase_eq (name : String) : b.bucketBase? name = bucketed? b.kindOf name :=
  filter_congr_of_mem fun _ _ => decide_eq_decide.mpr (kind_eq_some_iff (by decide))

theorem totalTarget_eq (name : String) : b.totalTarget? name = total? b.kindOf name :=
  filter_congr_of_mem fun _ _ => decide_eq_decide.mpr
    (or_congr (kind_eq_some_iff (by decide)) (kind_eq_some_iff (by decide)))

theorem toOption_groupTarget (b : Builder) (line : SampleLine) :
    (b.groupTarget line).toOption = line.target? b.kindOf := by
  rw [groupTarget, SampleLine.target?, bucketBase_eq, totalTarget_eq]
  by_cases summary : b.kindOf line.name = .summary
  · rw [if_pos ((kind_eq_some_iff (by decide)).mpr summary), if_pos summary, SampleLine.marked?]
    cases readLabelValue line "quantile" <;> rfl
  · rw [if_neg (mt (kind_eq_some_iff (by decide)).mp summary), if_neg summary]
    cases bucketed? b.kindOf line.name with
    | none => rfl
    | some base =>
        simp only [SampleLine.marked?]
        cases readLabelValue line "le" <;> rfl

theorem groupTarget_eq_ok_iff {target : Option GroupTarget} :
    b.groupTarget line = .ok target ↔ line.target? b.kindOf = some target := by
  rw [← toOption_groupTarget]
  cases b.groupTarget line <;> simp [Except.toOption]

theorem groupTarget_of_shadowed (summary : b.kindOf line.name = .summary)
    (unmarked : line.labels.get? "quantile" = none) :
    b.groupTarget line = .error (.invalidLabel ("missing " ++ "quantile")) := by
  rw [groupTarget, if_pos ((kind_eq_some_iff (by decide)).mpr summary), readLabelValue, unmarked]
  rfl

theorem sample_of_loose (loose : Loose b.kindOf line.name) :
    b.sample line = .ok (b.change line.name (.single ⟨line.labels, .single line.value⟩)) := by
  rw [sample, groupTarget_eq_ok_iff.mpr (SampleLine.target_of_loose loose)]
  rfl

theorem sample_of_part {family : String} {part : GroupPart}
    (name : line.name = part.lineName family) (fits : part.Fits (b.kindOf family))
    (clear : part.Clear b.kindOf family)
    (marked : ∀ mark ∈ part.mark?, readLabelValue line mark.1 = .ok mark.2) :
    b.sample line = .ok (b.change family
      (.record ((line.labels.erase "le").erase "quantile") part line.value)) := by
  have target := SampleLine.target_of_part name fits clear fun mark held => by
    rw [SampleLine.marked?, marked mark held]
    rfl
  rw [sample, groupTarget_eq_ok_iff.mpr target]
  rfl

theorem sample_of_shadowed (summary : b.kindOf line.name = .summary)
    (unmarked : line.labels.get? "quantile" = none) :
    b.sample line = .error (.invalidLabel ("missing " ++ "quantile")) := by
  rw [sample, groupTarget_of_shadowed summary unmarked]
  rfl

/-- An accepted sample line is a sample of its own, or part of a group. -/
theorem sample_cases {b' : Builder} (h : b.sample line = .ok b') :
    (Loose b.kindOf line.name ∧
      b' = b.change line.name (.single ⟨line.labels, .single line.value⟩)) ∨
    ∃ family part, line.name = part.lineName family ∧ part.Fits (b.kindOf family) ∧
      part.Clear b.kindOf family ∧
      b' = b.change family (.record ((line.labels.erase "le").erase "quantile") part line.value) := by
  rw [sample] at h
  cases found : b.groupTarget line with
  | error cause =>
      rw [found] at h
      cases h
  | ok target =>
      rw [found] at h
      cases target with
      | none =>
          cases h
          exact .inl ⟨SampleLine.loose_of_target (groupTarget_eq_ok_iff.mp found), rfl⟩
      | some target =>
          cases h
          obtain ⟨name, fits, clear, -⟩ :=
            SampleLine.part_of_target (groupTarget_eq_ok_iff.mp found)
          exact .inr ⟨target.family, target.part, name, fits, clear, rfl⟩

end Builder

end ProxyMonitor.Exposition
