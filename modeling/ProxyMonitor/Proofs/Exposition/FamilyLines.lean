import ProxyMonitor.Proofs.Exposition.Writing

namespace ProxyMonitor.Exposition

def groupParts : SampleValue → List (GroupPart × Binary64)
  | .single _ => []
  | .histogram buckets sum count =>
    (buckets.map fun bucket => (.bucket bucket.upperBound, bucket.cumulative)) ++
      [(.sum, sum), (.count, count)]
  | .summary quantiles sum count =>
    (quantiles.map fun quantile => (.quantile quantile.quantile, quantile.value)) ++
      [(.sum, sum), (.count, count)]

def sampleLines (name : String) (sample : Sample) : List (List Char) :=
  match sample.value with
  | .single value => [sampleText name sample.labels.pairs value]
  | .histogram buckets sum count =>
    (groupParts (.histogram buckets sum count)).map (partText name sample.labels)
  | .summary quantiles sum count =>
    (groupParts (.summary quantiles sum count)).map (partText name sample.labels)

def helpLines (family : Family) : List (List Char) :=
  if family.help = "" then [] else [helpLine family.name family.help]

def kindLines (family : Family) : List (List Char) :=
  if family.kind = .unknown then [] else [kindLine family.name family.kind]

def familyLines (family : Family) : List (List Char) :=
  helpLines family ++ kindLines family ++ family.samples.flatMap (sampleLines family.name)

def ended (lines : List (List Char)) : List Char := lines.flatMap (· ++ ['\n'])

theorem ended_append (first second : List (List Char)) :
    ended (first ++ second) = ended first ++ ended second := List.flatMap_append

theorem ended_flatMap {α : Type} (entries : List α) (linesOf : α → List (List Char)) :
    ended (entries.flatMap linesOf) = entries.flatMap fun entry => ended (linesOf entry) :=
  List.flatMap_assoc

theorem ended_map {α : Type} (entries : List α) (line : α → List Char) :
    ended (entries.map line) = entries.flatMap fun entry => line entry ++ ['\n'] :=
  List.flatMap_map ..

theorem renderLine_eq (name : String) (labels : Labels) (extra : List (String × String))
    (value : Binary64) :
    renderLine name.toList labels (extra.map spelled) value =
      sampleText name (labels.pairs ++ extra) value ++ ['\n'] := by
  rw [renderLine, sampleText, List.map_append]
  simp only [List.append_assoc, List.cons_append]
  rfl

theorem renderLine_part (name : String) (labels : Labels) (part : GroupPart) (value : Binary64) :
    renderLine (part.lineName name).toList labels
      (part.mark?.toList.map fun mark => (mark.1.toList, renderValue mark.2)) value =
        partText name labels (part, value) ++ ['\n'] := by
  have marks : (part.mark?.toList.map fun mark => (mark.1.toList, renderValue mark.2)) =
      part.mark.map spelled := by
    rw [GroupPart.mark, List.map_map]
    refine List.map_congr_left fun mark _ => ?_
    simp [spelled]
  rw [marks, renderLine_eq, partText]

theorem renderTotals_eq (name : String) (labels : Labels) (sum count : Binary64) :
    renderTotals name.toList labels sum count =
      ended ([(.sum, sum), (.count, count)].map (partText name labels)) := by
  rw [ended_map, List.flatMap_cons, List.flatMap_singleton, ← renderLine_part, ← renderLine_part,
    GroupPart.lineName, GroupPart.lineName, String.toList_append, String.toList_append]
  rfl

theorem renderSample_eq (name : String) (sample : Sample) :
    renderSample name.toList sample = ended (sampleLines name sample) := by
  rw [renderSample, sampleLines]
  cases sample.value with
  | single value =>
      have line := renderLine_eq name sample.labels [] value
      rw [List.append_nil] at line
      simpa [ended] using line
  | histogram buckets sum count =>
      simp only [groupParts]
      rw [List.map_append, ended_append, ← renderTotals_eq, List.map_map, ended_map]
      congr 1
      refine List.flatMap_congr fun bucket _ => ?_
      have line := renderLine_part name sample.labels (.bucket bucket.upperBound) bucket.cumulative
      rw [GroupPart.lineName, String.toList_append] at line
      exact line
  | summary quantiles sum count =>
      simp only [groupParts]
      rw [List.map_append, ended_append, ← renderTotals_eq, List.map_map, ended_map]
      congr 1
      refine List.flatMap_congr fun quantile _ => ?_
      exact renderLine_part name sample.labels (.quantile quantile.quantile) quantile.value

theorem renderFamily_eq (family : Family) : renderFamily family = ended (familyLines family) := by
  have help : renderHelp family = ended (helpLines family) := by
    rw [renderHelp, helpLines]
    split
    · rfl
    · simp [ended, helpLine, commentText]
  have kind : renderKind family = ended (kindLines family) := by
    rw [renderKind, kindLines]
    split
    · rfl
    · simp [ended, kindLine, commentText]
  rw [renderFamily, familyLines, ended_append, ended_append, help, kind, ended_flatMap]
  congr 1
  exact List.flatMap_congr fun sample _ => renderSample_eq family.name sample

theorem render_eq (families : List Family) :
    (render families).toList = ended (families.flatMap familyLines) := by
  rw [render, String.toList_ofList, ended_flatMap]
  exact List.flatMap_congr fun family _ => renderFamily_eq family

/-- A family whose names can be written, and whose help can be read back. -/
structure Writable (family : Family) : Prop where
  name : MetricName family.name.toList
  help : HelpText family.help.toList
  labels : ∀ sample ∈ family.samples, ∀ pair ∈ sample.labels.pairs, LabelName pair.1.toList

theorem Writable.newline_notMem {family : Family} (h : Writable family) :
    ∀ line ∈ familyLines family, '\n' ∉ line := by
  intro line member
  rw [familyLines, List.append_assoc, List.mem_append, List.mem_append] at member
  rcases member with help | kind | samples
  · rw [helpLines] at help
    split at help
    · cases help
    · obtain rfl := List.mem_singleton.mp help
      exact newline_notMem_commentText (by decide) h.name (newline_notMem_escapeHelp _)
  · rw [kindLines] at kind
    split at kind
    · cases kind
    · obtain rfl := List.mem_singleton.mp kind
      exact newline_notMem_commentText (by decide) h.name
        (newline_notMem_of_isWord (isWord_token family.kind))
  · obtain ⟨sample, held, inside⟩ := List.mem_flatMap.mp samples
    have labelNames := h.labels sample held
    have parts : ∀ part, '\n' ∉ partText family.name sample.labels part := by
      intro part
      refine newline_notMem_sampleText (part.1.metricName_lineName h.name) ?_ part.2
      intro pair member
      rcases List.mem_append.mp member with own | mark
      · exact labelNames pair own
      · exact GroupPart.labelName_mark pair mark
    rw [sampleLines] at inside
    split at inside
    · obtain rfl := List.mem_singleton.mp inside
      exact newline_notMem_sampleText h.name labelNames _
    · obtain ⟨part, -, rfl⟩ := List.mem_map.mp inside
      exact parts part
    · obtain ⟨part, -, rfl⟩ := List.mem_map.mp inside
      exact parts part

theorem lines_render {families : List Family} (h : ∀ family ∈ families, Writable family) :
    Text.lines (render families).toList = families.flatMap familyLines := by
  rw [render_eq]
  refine Text.lines_flatMap fun line member => ?_
  obtain ⟨family, held, inside⟩ := List.mem_flatMap.mp member
  exact (h family held).newline_notMem line inside

end ProxyMonitor.Exposition
