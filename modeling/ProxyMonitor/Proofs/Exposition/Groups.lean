import ProxyMonitor.Proofs.Exposition.FamilyLines
import ProxyMonitor.Proofs.Exposition.Runs

/-! Groups read back from their lines: those of a part that a summary shadows are lost, and may be
lost only where the group without them is the same. -/

namespace ProxyMonitor

def Bucket.canonical (bucket : Bucket) : Bucket :=
  ⟨bucket.upperBound.canonical, bucket.cumulative.canonical⟩

def Quantile.canonical (quantile : Quantile) : Quantile :=
  ⟨quantile.quantile.canonical, quantile.value.canonical⟩

def SampleValue.canonical : SampleValue → SampleValue
  | single value => single value.canonical
  | histogram buckets sum count =>
    histogram (buckets.map Bucket.canonical) sum.canonical count.canonical
  | summary quantiles sum count =>
    summary (quantiles.map Quantile.canonical) sum.canonical count.canonical

def Sample.canonical (sample : Sample) : Sample := { sample with value := sample.value.canonical }

def Family.canonical (family : Family) : Family :=
  { family with samples := family.samples.map Sample.canonical }

namespace Exposition

def tell (group : GroupDraft) (part : GroupPart × Binary64) : GroupDraft :=
  group.record part.2.canonical part.1.canonical

theorem foldl_tell_labels (parts : List (GroupPart × Binary64)) (group : GroupDraft) :
    (parts.foldl tell group).labels = group.labels := by
  induction parts generalizing group with
  | nil => rfl
  | cons part rest ih => rw [List.foldl_cons, ih, tell, GroupDraft.record_labels]

theorem foldl_tell_buckets (buckets : List Bucket) (group : GroupDraft) :
    (buckets.map fun bucket => (GroupPart.bucket bucket.upperBound, bucket.cumulative)).foldl tell
      group = { group with buckets := group.buckets ++ buckets.map Bucket.canonical } := by
  induction buckets generalizing group with
  | nil => simp
  | cons bucket rest ih =>
      rw [List.map_cons, List.foldl_cons, ih]
      simp [tell, GroupDraft.record, GroupPart.canonical, Bucket.canonical]

theorem foldl_tell_quantiles (quantiles : List Quantile) (group : GroupDraft) :
    (quantiles.map fun quantile => (GroupPart.quantile quantile.quantile, quantile.value)).foldl
      tell group =
        { group with quantiles := group.quantiles ++ quantiles.map Quantile.canonical } := by
  induction quantiles generalizing group with
  | nil => simp
  | cons quantile rest ih =>
      rw [List.map_cons, List.foldl_cons, ih]
      simp [tell, GroupDraft.record, GroupPart.canonical, Quantile.canonical]

def groupKind? : SampleValue → Option MetricKind
  | .single _ => none
  | .histogram .. => some .histogram
  | .summary .. => some .summary

def groupKey? (sample : Sample) : Option (List (String × String)) :=
  (groupKind? sample.value).map fun _ => sample.labels.pairs

def impliedCount : SampleValue → Binary64
  | .histogram buckets _ _ => (buckets.getLast?.map Bucket.cumulative).getD .zero
  | _ => .zero

/-- A group without this part has the same value for it. -/
def Implied (value : SampleValue) (part : GroupPart × Binary64) : Prop :=
  match part.1 with
  | .sum => part.2 = .zero
  | .count => part.2 = impliedCount value
  | _ => False

/-- The lines of a sample that are taken in tell all of it. -/
inductive Told (kinds : String → MetricKind) (family : Family) (sample : Sample) : Prop where
  | single {value : Binary64} (alone : sample.value = .single value)
      (loose : Loose kinds family.name)
  | group (kind : groupKind? sample.value = some family.kind) (plain : GroupLabels sample.labels)
      (told : ∀ part ∈ groupParts sample.value,
        part.1.Clear kinds family.name ∨ Implied sample.value part)
      (visible : ∃ part ∈ groupParts sample.value, part.1.Clear kinds family.name)

instance (kinds : String → MetricKind) (name : String) (part : GroupPart) :
    Decidable (part.Clear kinds name) :=
  match part with
  | .bucket _ => inferInstanceAs (Decidable (_ ≠ _))
  | .quantile _ => inferInstanceAs (Decidable True)
  | .sum => inferInstanceAs (Decidable (_ ≠ _))
  | .count => inferInstanceAs (Decidable (_ ≠ _))

theorem fits_of_groupKind {value : SampleValue} {kind : MetricKind}
    (h : groupKind? value = some kind) : ∀ part ∈ groupParts value, part.1.Fits kind := by
  intro part member
  cases value with
  | single value => cases h
  | histogram buckets sum count =>
      cases h
      rcases List.mem_append.mp member with bucket | total
      · obtain ⟨bucket, -, rfl⟩ := List.mem_map.mp bucket
        rfl
      · rcases List.mem_pair.mp total with rfl | rfl
        · exact .inl rfl
        · exact .inl rfl
  | summary quantiles sum count =>
      cases h
      rcases List.mem_append.mp member with quantile | total
      · obtain ⟨quantile, -, rfl⟩ := List.mem_map.mp quantile
        rfl
      · rcases List.mem_pair.mp total with rfl | rfl
        · exact .inr rfl
        · exact .inr rfl

theorem exists_part {value : SampleValue} {kind : MetricKind} (h : groupKind? value = some kind) :
    ∃ part, part ∈ groupParts value := by
  cases value with
  | single value => cases h
  | histogram buckets sum count => exact ⟨(.sum, sum), List.mem_append_right _ List.mem_cons_self⟩
  | summary quantiles sum count => exact ⟨(.sum, sum), List.mem_append_right _ List.mem_cons_self⟩

section

variable {kinds : String → MetricKind} {name : String}

theorem foldl_tell_totals (sum count : Binary64) (group : GroupDraft) :
    ([(GroupPart.sum, sum), (GroupPart.count, count)].filter fun part =>
      part.1.Clear kinds name).foldl tell group =
      { group with
        sum := if GroupPart.sum.Clear kinds name then some sum.canonical else group.sum
        count :=
          if GroupPart.count.Clear kinds name then some count.canonical else group.count } := by
  by_cases sumClear : GroupPart.sum.Clear kinds name <;>
    by_cases countClear : GroupPart.count.Clear kinds name <;>
      simp [sumClear, countClear, tell, GroupDraft.record, GroupPart.canonical]

theorem total_of_told {sum : Binary64} {clear : Prop} [Decidable clear] (told : clear ∨ sum = .zero) :
    (if clear then some sum.canonical else none).getD .zero = sum.canonical := by
  split
  next => rfl
  next shadowed => rw [told.resolve_left shadowed]; rfl

theorem finish_foldl_tell {labels : Labels} {value : SampleValue} {kind : MetricKind}
    (h : groupKind? value = some kind)
    (told : ∀ part ∈ groupParts value, part.1.Clear kinds name ∨ Implied value part) :
    (((groupParts value).filter fun part => part.1.Clear kinds name).foldl tell
      (.empty labels)).finish kind = ⟨labels, value.canonical⟩ := by
  cases value with
  | single value => cases h
  | histogram buckets sum count =>
      cases h
      have heads : ∀ part ∈ buckets.map fun bucket =>
          (GroupPart.bucket bucket.upperBound, bucket.cumulative),
          decide (part.1.Clear kinds name) = true := by
        intro part member
        have clear := told part (List.mem_append_left _ member)
        obtain ⟨bucket, -, rfl⟩ := List.mem_map.mp member
        exact decide_eq_true (clear.resolve_right id)
      -- a shadowed count falls back to the last bucket, as read
      have sumTold : GroupPart.sum.Clear kinds name ∨ sum = .zero :=
        told (.sum, sum) (List.mem_append_right _ List.mem_cons_self)
      have countTold : GroupPart.count.Clear kinds name ∨
          count = (buckets.getLast?.map Bucket.cumulative).getD .zero :=
        told (.count, count) (by simp [groupParts])
      have countSame : ((if GroupPart.count.Clear kinds name then some count.canonical else none) <|>
          (buckets.map Bucket.canonical).getLast?.map Bucket.cumulative).getD .zero =
            count.canonical := by
        split
        next => rfl
        next shadowed =>
          rw [countTold.resolve_left shadowed, List.getLast?_map]
          cases buckets.getLast? <;> rfl
      rw [groupParts, List.filter_append, List.filter_eq_self.mpr heads, List.foldl_append,
        foldl_tell_buckets, foldl_tell_totals]
      simp only [GroupDraft.finish, GroupDraft.empty, List.nil_append, total_of_told sumTold,
        countSame]
      rfl
  | summary quantiles sum count =>
      cases h
      have heads : ∀ part ∈ quantiles.map fun quantile =>
          (GroupPart.quantile quantile.quantile, quantile.value),
          decide (part.1.Clear kinds name) = true := by
        intro part member
        obtain ⟨quantile, -, rfl⟩ := List.mem_map.mp member
        rfl
      have sumTold : GroupPart.sum.Clear kinds name ∨ sum = .zero :=
        told (.sum, sum) (List.mem_append_right _ List.mem_cons_self)
      have countTold : GroupPart.count.Clear kinds name ∨ count = .zero :=
        told (.count, count) (by simp [groupParts])
      rw [groupParts, List.filter_append, List.filter_eq_self.mpr heads, List.foldl_append,
        foldl_tell_quantiles, foldl_tell_totals]
      simp only [GroupDraft.finish, GroupDraft.empty, List.nil_append, total_of_told sumTold,
        total_of_told countTold]
      rfl

end

end Exposition

end ProxyMonitor
