import ProxyMonitor.Proofs.Exposition.Assembly
import ProxyMonitor.Proofs.Exposition.Failures

/-! A reading hears each line with the kinds that the lines before it declare. -/

namespace ProxyMonitor.Exposition

/-- What the lines after some past ones say to a reading. -/
def heardFrom (past : List (List Char)) : List (List Char) → List Statement
  | [] => []
  | line :: rest => (heard? (declaredKind past) line).toList ++ heardFrom (past ++ [line]) rest

def refusedFrom (past : List (List Char)) (next : Nat) : List (List Char) → List Nat
  | [] => []
  | line :: rest =>
    if Malformed (declaredKind past) line then
      next :: refusedFrom (past ++ [line]) (next + 1) rest
    else refusedFrom (past ++ [line]) (next + 1) rest

theorem lastKind_heard {past : List (List Char)} {before : List Statement}
    (kinds : lastKind before = declaredKind past) (line : List Char) :
    lastKind (before ++ (heard? (declaredKind past) line).toList) =
      declaredKind (past ++ [line]) := by
  funext name
  rw [declaredKind_concat, ← kinds,
    ← bind_kind_or_sample _ (((sampleLine? line).bind (SampleLine.taken? _)).map Taken.entry),
    ← heard?]
  cases heard? (lastKind before) line with
  | none => rw [Option.toList_none, List.append_nil]; rfl
  | some statement => exact lastKind_concat before statement name

theorem lastKind_heardFrom {past : List (List Char)} {before : List Statement}
    (kinds : lastKind before = declaredKind past) (rest : List (List Char)) :
    lastKind (before ++ heardFrom past rest) = declaredKind (past ++ rest) := by
  induction rest generalizing past before with
  | nil => rw [heardFrom, List.append_nil, List.append_nil, kinds]
  | cons line rest ih =>
      have later := ih (lastKind_heard kinds line)
      rw [List.append_assoc, List.append_assoc] at later
      exact later

theorem readLines_heard {past rest : List (List Char)} {before : List Statement} {b : Builder}
    {next : Nat} {families : List Family} (shows : b.Shows (sketched before))
    (kinds : lastKind before = declaredKind past)
    (parsed : (readLines next b rest).families = .ok families) :
    (∃ last : Builder, last.Shows (sketched (before ++ heardFrom past rest)) ∧
        families = last.finish) ∧
      (readLines next b rest).skipped.map Problem.line = refusedFrom past next rest := by
  -- The builder shows what was heard so far, so it knows the kinds that the past lines declare.
  induction rest generalizing past before b next with
  | nil =>
      rw [heardFrom, List.append_nil]
      exact ⟨⟨b, shows, (Except.ok.inj parsed).symm⟩, rfl⟩
  | cons line rest ih =>
      have known : b.kindOf = declaredKind past := by
        funext name
        rw [shows.kindOf, kindIn_sketched, kinds]
      have later := lastKind_heard kinds line
      rw [heardFrom, refusedFrom, ← known]
      rw [← known] at later
      by_cases opened : OpenLine line
      · rw [readLines_open opened] at parsed
        cases parsed
      · have heard := heard_readLine b line
        cases outcome : readLine b line with
        | ok middle =>
            rw [readLines_take outcome] at parsed ⊢
            rw [outcome] at heard
            cases heard with
            | @said statement tells =>
                have formed : ¬ Malformed b.kindOf line := by
                  rintro ⟨-, -, nothing⟩
                  rw [heard_eq_none_iff.mpr nothing] at tells
                  cases tells
                rw [tells, Option.toList_some] at later ⊢
                rw [if_neg formed, ← List.append_assoc]
                refine ih ?_ later parsed
                rw [sketched_concat]
                exact shows.change statement.family statement.change
            | silent nothing formed =>
                rw [nothing, Option.toList_none, List.append_nil] at later
                rw [nothing, Option.toList_none, List.nil_append, if_neg formed]
                exact ih shows later parsed
        | error cause =>
            rw [readLines_skip outcome opened] at parsed ⊢
            rw [outcome] at heard
            cases heard with
            | refused malformed =>
                have nothing := heard_eq_none_iff.mpr malformed.2.2
                rw [nothing, Option.toList_none, List.append_nil] at later
                rw [nothing, Option.toList_none, List.nil_append, if_pos malformed]
                obtain ⟨last, skipped⟩ := ih shows later parsed
                exact ⟨last, congrArg (next :: ·) skipped⟩

def heard (lines : List (List Char)) : List Statement := heardFrom [] lines

theorem lastKind_heard_all (lines : List (List Char)) :
    lastKind (heard lines) = declaredKind lines :=
  @lastKind_heardFrom [] [] rfl lines

theorem read_heard {text : String} {families : List Family}
    (parsed : (read text).families = .ok families) :
    (∃ last : Builder, last.Shows (sketched (heard (Text.lines text.toList))) ∧
        families = last.finish) ∧
      (read text).skipped.map Problem.line = refusedFrom [] 1 (Text.lines text.toList) := by
  have nothing : Builder.empty.Shows (sketched []) := .empty
  have unknown : lastKind [] = declaredKind [] := rfl
  exact readLines_heard nothing unknown parsed

end ProxyMonitor.Exposition
