import ProxyMonitor.Overview
import ProxyMonitor.Proofs.Lookup
import ProxyMonitor.Proofs.Charts.Rates
import ProxyMonitor.Proofs.NumberText

/-! Which blocks of the overview are available. A block holds nothing but its text, so no number may
be written like the notice. -/

namespace ProxyMonitor

namespace Binary64

theorem isWord_fixed (places : Nat) (x : Binary64) : Text.IsWord (x.fixed places) := by
  cases x with
  | nan negative => exact (by decide : Text.IsWord ['N', 'a', 'N'])
  | infinite negative => cases negative <;> exact isWord_text (.infinite _)
  | finite negative rank =>
      rw [fixed]
      cases places with
      | zero =>
          exact isWord_signed negative Nat.toDigits_ne_nil fun c member =>
            .inl (Decimal.all_isDigit_toDigits _ c member)
      | succ places =>
          exact isWord_positional negative (Decimal.positional_pointed _ places.succ_ne_zero)

end Binary64

/-- Some number is written so, in full or to a number of places. -/
def IsNumberText (text : String) : Prop :=
  ∃ x : Binary64, text = toString x ∨ ∃ places, text = x.toFixed places

theorem isNumberText_fixed (places : Nat) (x : Binary64) : IsNumberText (x.toFixed places) :=
  ⟨x, .inr ⟨places, rfl⟩⟩

theorem isNumberText_toString (x : Binary64) : IsNumberText (toString x) := ⟨x, .inl rfl⟩

theorem isNumberText_formatCount (x : Binary64) : IsNumberText (formatCount x) := by
  rw [formatCount]
  split
  · exact isNumberText_fixed 0 x
  · exact isNumberText_toString x

theorem IsNumberText.isWord {text : String} (h : IsNumberText text) : Text.IsWord text.toList := by
  obtain ⟨x, rfl | ⟨places, rfl⟩⟩ := h
  · rw [show toString x = String.ofList x.text from rfl, String.toList_ofList]
    exact x.isWord_text
  · rw [Binary64.toFixed, String.toList_ofList]
    exact x.isWord_fixed places

theorem not_isNumberText_notAvailable : ¬ IsNumberText notAvailable :=
  fun number => absurd number.isWord (by decide +kernel)

namespace Snapshot

variable {snapshot : Snapshot} {name label value : String}

def Reports (snapshot : Snapshot) (name : String) : Prop :=
  ∃ family, FirstWith snapshot (·.name = name) family ∧ family.samples ≠ []

def ReportsWith (snapshot : Snapshot) (name label value : String) : Prop :=
  ∃ family, FirstWith snapshot (·.name = name) family ∧
    ∃ sample ∈ family.samples, sample.label? label = some value

/-- The first family of the name has a sample with the label, and the first such is not zero. -/
def ReportsNonzero (snapshot : Snapshot) (name label value : String) : Prop :=
  ∃ family, FirstWith snapshot (·.name = name) family ∧
    ∃ sample, FirstWith family.samples (·.label? label = some value) sample ∧
      sample.number ≠ .zero ∧ sample.number ≠ .negativeZero

theorem isSome_first_iff :
    (MetricView.first snapshot name).value?.isSome = true ↔ snapshot.Reports name := by
  simp only [MetricView.first, MetricView.value?, Option.isSome_map, Option.isSome_bind,
    Option.any_eq_true, family?_eq_some_iff, Reports, List.isSome_head?]

theorem isSome_nested_iff :
    (MetricView.nested snapshot name label value).value?.isSome = true ↔
      snapshot.ReportsWith name label value := by
  simp only [MetricView.nested, MetricView.value?, Option.isSome_map, Option.isSome_bind,
    Option.any_eq_true, family?_eq_some_iff, ReportsWith, Family.withLabel?, List.find?_isSome,
    beq_iff_eq]

end Snapshot

theorem Overview.isSome_cacheUsage_iff {used total : Option Binary64} :
    (cacheUsage? used total).isSome = true ↔
      used.isSome = true ∧ ∃ x, total = some x ∧ x ≠ .zero ∧ x ≠ .negativeZero := by
  cases used with
  | none => simp [cacheUsage?]
  | some used =>
      cases total with
      | none => simp [cacheUsage?]
      | some total =>
          have nonzero := not_congr (Binary64.same_zero_iff total)
          rw [not_or] at nonzero
          simp [cacheUsage?, ← nonzero]

namespace StatBlock

/-- The block of a title shows a number if one is reported, and the notice otherwise. -/
structure Tells (block : StatBlock) (title : String) (reported : Prop) : Prop where
  titled : block.title = title
  available : block.isAvailable = true ↔ reported
  number : IsNumberText block.value ↔ reported

theorem tells_of_isSome {title : String} {number? : Option Binary64} {format : Binary64 → String}
    {units : Option String} {hint : String} {reported : Prop}
    (numbers : ∀ x, IsNumberText (format x)) (same : number?.isSome = true ↔ reported) :
    (Overview.block title (number?.map format) units hint).Tells title reported := by
  rw [← same]
  cases number? with
  | none =>
      refine ⟨rfl, by simp [Overview.block, isAvailable], ?_⟩
      simpa [Overview.block] using not_isNumberText_notAvailable
  | some x =>
      have apart : format x ≠ notAvailable := by
        intro alike
        exact not_isNumberText_notAvailable (alike ▸ numbers x)
      refine ⟨rfl, by simp [Overview.block, isAvailable, apart], ?_⟩
      simpa [Overview.block] using numbers x

end StatBlock

namespace Overview

def needs (snapshot : Snapshot) : List (String × Prop) :=
  [("Uptime", snapshot.Reports MetricName.startTime),
    ("Cache Usage", snapshot.ReportsWith MetricName.cacheMetrics "metric" "mem_used_bytes" ∧
      snapshot.ReportsNonzero MetricName.cacheMetrics "metric" "mem_total_bytes"),
    ("Cache Mem", snapshot.ReportsWith MetricName.cacheMetrics "metric" "mem_total_bytes"),
    ("Cached Documents", snapshot.ReportsWith MetricName.cacheMetrics "metric" "items"),
    ("Total Requests", True),
    ("Fetched (Docs)", True),
    ("Forced (Docs)", True),
    ("Errors", snapshot.Reports MetricName.errors),
    ("Virtual Memory", snapshot.Reports MetricName.virtualMemory),
    ("Total CPU Time", snapshot.Reports MetricName.cpuSeconds)]

theorem isSome_cacheUsage_snapshot (snapshot : Snapshot) :
    (cacheUsage? (snapshot.cacheMetric "mem_used_bytes").value?
        (snapshot.cacheMetric "mem_total_bytes").value?).isSome = true ↔
      snapshot.ReportsWith MetricName.cacheMetrics "metric" "mem_used_bytes" ∧
        snapshot.ReportsNonzero MetricName.cacheMetrics "metric" "mem_total_bytes" := by
  rw [isSome_cacheUsage_iff, Snapshot.cacheMetric, Snapshot.isSome_nested_iff]
  refine and_congr_right fun _ => ?_
  simp only [Snapshot.cacheMetric, Snapshot.nested_value_eq_some_iff, Snapshot.Gives,
    Snapshot.ReportsNonzero]
  constructor
  · rintro ⟨-, ⟨family, first, sample, found, rfl⟩, nonzero⟩
    exact ⟨family, first, sample, found, nonzero⟩
  · rintro ⟨family, first, sample, found, nonzero⟩
    exact ⟨_, ⟨family, first, sample, found, rfl⟩, nonzero⟩

/-- Each block shows a number exactly when the snapshot reports what the block needs. -/
theorem blocks_tell_reported (snapshot : Snapshot) (nowMs : Nat) (totalRequests : Binary64) :
    List.Forall₂ (fun (block : StatBlock) (need : String × Prop) => block.Tells need.1 need.2)
      (ofSnapshot snapshot nowMs totalRequests).blocks (needs snapshot) := by
  have thousandths : ∀ x, IsNumberText (thousandths x) := isNumberText_fixed 3
  have always : ∀ x : Binary64, (some x).isSome = true ↔ True := fun _ => by simp
  refine .cons ?uptime <| .cons ?usage <| .cons ?memory <| .cons ?documents <| .cons ?requests <|
    .cons ?fetched <| .cons ?forced <| .cons ?errors <| .cons ?virtual <| .cons ?cpu .nil
  case uptime =>
    exact StatBlock.tells_of_isSome (fun s => thousandths (uptime nowMs s)) Snapshot.isSome_first_iff
  case usage => exact StatBlock.tells_of_isSome thousandths (isSome_cacheUsage_snapshot snapshot)
  case memory =>
    exact StatBlock.tells_of_isSome (fun t => thousandths (t.div (.ofNat 1000000)))
      Snapshot.isSome_nested_iff
  case documents =>
    exact StatBlock.tells_of_isSome isNumberText_formatCount Snapshot.isSome_nested_iff
  case requests | fetched | forced =>
    exact StatBlock.tells_of_isSome isNumberText_formatCount (always _)
  case errors | virtual =>
    exact StatBlock.tells_of_isSome isNumberText_formatCount Snapshot.isSome_first_iff
  case cpu => exact StatBlock.tells_of_isSome isNumberText_toString Snapshot.isSome_first_iff

end Overview

end ProxyMonitor
