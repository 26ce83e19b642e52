import ProxyMonitor.Proofs.Exposition.Hearing

/-! Reading loses and doubles nothing: the families of a text hold each accepted sample line in one
place, whatever the order of the lines, if types are declared in time. -/

namespace ProxyMonitor.Exposition

def refusedLines (kinds : String → MetricKind) (next : Nat) (lines : List (List Char)) : List Nat :=
  (lines.zipIdx next).filterMap fun numbered =>
    if Malformed kinds numbered.1 then some numbered.2 else none

theorem refusedLines_cons (kinds : String → MetricKind) (next : Nat) (line : List Char)
    (rest : List (List Char)) :
    refusedLines kinds next (line :: rest) =
      if Malformed kinds line then next :: refusedLines kinds (next + 1) rest
      else refusedLines kinds (next + 1) rest := by
  rw [refusedLines, List.zipIdx_cons, List.filterMap_cons]
  by_cases malformed : Malformed kinds line
  · simp only [if_pos malformed]
    rfl
  · simp only [if_neg malformed]
    rfl

section

variable {past rest : List (List Char)}

theorem heardFrom_eq (first : DeclaredFirst (past ++ rest)) (unmixed : Unmixed (past ++ rest)) :
    heardFrom past rest = rest.filterMap (statement? (declaredKind (past ++ rest))) := by
  induction rest generalizing past with
  | nil => rfl
  | cons line rest ih =>
      have step : past ++ line :: rest = past ++ [line] ++ rest := by rw [List.append_assoc]; rfl
      rw [heardFrom, filterMap_cons_eq, heard_eq_statement (unmixed.so_far first),
        statement_congr first, step]
      exact congrArg _ (ih (step ▸ first) (step ▸ unmixed))

theorem refusedFrom_eq (first : DeclaredFirst (past ++ rest)) (next : Nat) :
    refusedFrom past next rest = refusedLines (declaredKind (past ++ rest)) next rest := by
  induction rest generalizing past next with
  | nil => rfl
  | cons line rest ih =>
      have step : past ++ line :: rest = past ++ [line] ++ rest := by rw [List.append_assoc]; rfl
      have same : Malformed (declaredKind (past ++ line :: rest)) line ↔
          Malformed (declaredKind past) line := by
        rw [Malformed, Malformed, statement_congr first]
      rw [refusedFrom, refusedLines_cons, ih (step ▸ first), ← step]
      exact if_congr same.symm rfl rfl

end

theorem read_said {text : String} {families : List Family}
    (first : DeclaredFirst (Text.lines text.toList)) (unmixed : Unmixed (Text.lines text.toList))
    (parsed : (read text).families = .ok families) :
    (∃ last : Builder, last.Shows (sketched (said (Text.lines text.toList))) ∧
        families = last.finish) ∧
      (read text).skipped.map Problem.line =
        refusedLines (declaredKind (Text.lines text.toList)) 1 (Text.lines text.toList) := by
  have own : heard (Text.lines text.toList) = said (Text.lines text.toList) :=
    @heardFrom_eq [] _ first unmixed
  have refused := @refusedFrom_eq [] _ first 1
  obtain ⟨last, skipped⟩ := read_heard parsed
  exact ⟨own ▸ last, skipped.trans refused⟩

def accepted (lines : List (List Char)) : List Entry :=
  lines.filterMap fun line => (sampleLine? line).bind (SampleLine.placed? (declaredKind lines))

theorem entries_said (lines : List (List Char)) : entries (said lines) = accepted lines := by
  rw [entries, said, List.filterMap_filterMap, accepted]
  exact List.filterMap_congr fun line _ => bind_sample_or fun none => by rw [none]; rfl

/-- The families of some lines hold what the lines say, each in its place. -/
structure Gathered (lines : List (List Char)) (families : List Family) : Prop where
  names : families.map Family.name = ((said lines).map Statement.family).eraseDups
  distinct : (families.map Family.name).Nodup
  kind : ∀ family ∈ families, family.kind = declaredKind lines family.name
  help : ∀ family ∈ families, family.help = lastHelp (said lines) family.name
  samples : ∀ family ∈ families,
    family.samples = (portionsOf (said lines) family.name).map (sampleOf family.kind)
  /-- Every accepted line is in one portion of one family. -/
  once : (families.flatMap fun family =>
    (portionsOf (said lines) family.name).flatMap Portion.items).Perm (accepted lines)
  whole : ∀ family ∈ families, ∀ portion ∈ portionsOf (said lines) family.name,
    portion.first.part = none ∧ portion.rest = [] ∨
      portion.items = (entriesOf (said lines) family.name).filter fun entry =>
        entry.part.isSome ∧ entry.labels = portion.first.labels
  places : ∀ family ∈ families,
    ((portionsOf (said lines) family.name).map Portion.first).Sublist
      (entriesOf (said lines) family.name)
  inOrder : ∀ family ∈ families, ∀ portion ∈ portionsOf (said lines) family.name,
    portion.items.Sublist (entriesOf (said lines) family.name)
  attributed : ∀ entry, entry ∈ accepted lines ↔ ∃ line ∈ lines, ∃ sample,
    sampleLine? line = some sample ∧ Attributed (declaredKind lines) sample entry

theorem gathered_of_shows {lines : List (List Char)} {last : Builder}
    (shows : last.Shows (sketched (said lines))) : Gathered lines last.finish := by
  have names := names_of_shows shows
  have sketchNames : last.finish.map Family.name = (sketched (said lines)).map Sketch.name := by
    rw [shows.finish, List.map_map]
    rfl
  exact {
    names
    distinct := sketchNames ▸ shows.distinct
    kind := by
      intro family member
      rw [eq_familyOf shows member]
      exact (declaredKind_eq _ lines family.name).symm
    help := by
      intro family member
      rw [eq_familyOf shows member]
      rfl
    samples := by
      intro family member
      rw [eq_familyOf shows member]
      rfl
    once := by
      rw [← List.flatMap_map Family.name fun name =>
        (portionsOf (said lines) name).flatMap Portion.items, names, ← entries_said]
      exact flatMap_portionsOf_perm (said lines)
    whole := fun _ _ _ member => whole_of_portion member
    places := fun _ _ => firsts_sublist _ _
    inOrder := fun _ _ _ member => items_sublist member
    attributed := fun entry => by
      simp only [accepted, List.mem_filterMap, Option.bind_eq_some_iff, SampleLine.attributed_iff] }

/-- Reading gathers every accepted sample line in one place, and skips only malformed lines. -/
theorem read_gathers (text : String) (families : List Family)
    (first : DeclaredFirst (Text.lines text.toList)) (unmixed : Unmixed (Text.lines text.toList))
    (parsed : (read text).families = .ok families) :
    Gathered (Text.lines text.toList) families ∧
      (read text).skipped.map Problem.line =
        refusedLines (declaredKind (Text.lines text.toList)) 1 (Text.lines text.toList) := by
  obtain ⟨⟨last, shows, rfl⟩, skipped⟩ := read_said first unmixed parsed
  exact ⟨gathered_of_shows shows, skipped⟩

def interleavedLines : List (List Char) :=
  ["# HELP latency Latency", "# TYPE latency histogram", "latency_bucket\x7ble=\"1\",m=\"a\"\x7d 1",
    "up 1", "latency_bucket\x7ble=\"1\",m=\"b\"\x7d 2", "latency_sum\x7bm=\"a\"\x7d 3", "junk",
    "latency_bucket\x7bm=\"a\"\x7d 4", "# TYPE rate summary", "rate\x7bquantile=\"0.5\"\x7d 7",
    "latency_bucket\x7ble=\"+Inf\",m=\"a\"\x7d 4", "latency_sum\x7bm=\"a\"\x7d 5", "latency 9",
    "up 2", "rate_count 1", "# HELP latency Seconds"].map String.toList

def interleaved : String := String.ofList (interleavedLines.flatMap (· ++ ['\n']))

theorem lines_interleaved : Text.lines interleaved.toList = interleavedLines := by
  rw [interleaved, String.toList_ofList]
  exact Text.lines_flatMap (by decide +kernel)

theorem read_gathers_interleaved :
    ∃ families,
      DeclaredFirst (Text.lines interleaved.toList) ∧ Unmixed (Text.lines interleaved.toList) ∧
      (read interleaved).families = .ok families ∧
      families.map Family.name = ["latency", "up", "rate"] ∧
      Gathered (Text.lines interleaved.toList) families ∧
      (read interleaved).skipped.map Problem.line = [7, 8] := by
  have first : DeclaredFirst (Text.lines interleaved.toList) := by
    rw [lines_interleaved]
    decide +kernel
  have unmixed : Unmixed (Text.lines interleaved.toList) := by
    rw [lines_interleaved]
    decide +kernel
  obtain ⟨families, parsed⟩ : ∃ families, (read interleaved).families = .ok families := by
    rw [read, readLines_ok_iff, lines_interleaved]
    decide +kernel
  obtain ⟨gathered, skipped⟩ := read_gathers interleaved families first unmixed parsed
  refine ⟨families, first, unmixed, parsed, ?_, gathered, ?_⟩
  · rw [gathered.names, lines_interleaved]
    decide +kernel
  · rw [skipped, lines_interleaved]
    decide +kernel

end ProxyMonitor.Exposition
