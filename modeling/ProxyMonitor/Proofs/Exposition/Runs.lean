import ProxyMonitor.Exposition.Read

namespace ProxyMonitor.Exposition

/-- Lines lead from one builder to another. A strict run takes in every line; one that is not
strict also passes over malformed lines. -/
inductive Run (strict : Prop) : Builder → List (List Char) → Builder → Prop where
  | nil {b : Builder} : Run strict b [] b
  | take {b middle last : Builder} {line : List Char} {rest : List (List Char)}
      (read : readLine b line = .ok middle) (later : Run strict middle rest last) :
      Run strict b (line :: rest) last
  | skip {b last : Builder} {line : List Char} {rest : List (List Char)} {cause : Cause}
      (lenient : ¬ strict) (failed : readLine b line = .error cause)
      (mild : cause.isFatal = false) (later : Run strict b rest last) :
      Run strict b (line :: rest) last

namespace Run

variable {strict : Prop} {b middle last : Builder} {lines : List (List Char)}

theorem append {further : List (List Char)} (first : Run strict b lines middle)
    (second : Run strict middle further last) : Run strict b (lines ++ further) last := by
  induction first with
  | nil => exact second
  | take read _ ih => exact .take read (ih second)
  | skip lenient failed mild _ ih => exact .skip lenient failed mild (ih second)

theorem single {line : List Char} (read : readLine b line = .ok last) : Run strict b [line] last :=
  .take read .nil

theorem readLines_families (h : Run strict b lines last) (next : Nat) :
    (readLines next b lines).families = .ok last.finish := by
  induction h generalizing next with
  | nil => rfl
  | take read _ ih => simp only [readLines, read, ih]
  | skip _ failed mild _ ih =>
      simp only [readLines, failed, mild]
      exact ih (next + 1)

theorem readLines_skipped (h : Run True b lines last) (next : Nat) :
    (readLines next b lines).skipped = [] := by
  induction h generalizing next with
  | nil => rfl
  | take read _ ih => simp only [readLines, read, ih]
  | skip lenient => exact absurd trivial lenient

end Run

theorem exists_run_of_readLines {next : Nat} {b : Builder} {lines : List (List Char)}
    {families : List Family} (h : (readLines next b lines).families = .ok families) :
    ∃ last, Run False b lines last ∧ families = last.finish := by
  induction lines generalizing next b with
  | nil => exact ⟨b, .nil, (Except.ok.inj h).symm⟩
  | cons line rest ih =>
      rw [readLines] at h
      split at h
      next middle read =>
        obtain ⟨last, later, same⟩ := ih h
        exact ⟨last, .take read later, same⟩
      next cause failed =>
        split at h
        next => cases h
        next mild =>
          obtain ⟨last, later, same⟩ := ih h
          exact ⟨last, .skip not_false failed (Bool.eq_false_iff.mpr mild) later, same⟩

end ProxyMonitor.Exposition
