import ProxyMonitor.Exposition.Read
import ProxyMonitor.Proofs.Exposition.Attribution
import ProxyMonitor.Proofs.Exposition.Escaping
import ProxyMonitor.Proofs.Exposition.LineReading

namespace ProxyMonitor.Exposition

open Text (BeginsSolid EndsSolid)

def declaredName? (line : List Char) : Option String :=
  match Text.trim line with
  | '#' :: text =>
    match Text.splitWord (Text.trimStart text) with
    | (['T', 'Y', 'P', 'E'], some rest) =>
      let name := (Text.splitWord (Text.trimStart rest)).1
      if isMetricName name then some (String.ofList name) else none
    | _ => none
  | _ => none

def sampledName? (line : List Char) : Option String :=
  match readSampleLine (Text.trim line) with
  | .ok sample => some sample.name
  | .error _ => none

/-- A line that is taken in leads from one builder to another. -/
inductive Effect (b : Builder) (line : List Char) : Builder → Prop where
  | nothing (silent : declaredName? line = none) : Effect b line b
  | describe {name help : String} (silent : declaredName? line = none)
      (isName : MetricName name.toList) (trimmed : HelpText help.toList) :
      Effect b line (b.change name (.describe help))
  | declare {name : String} (kind : MetricKind) (declares : declaredName? line = some name)
      (isName : MetricName name.toList) : Effect b line (b.change name (.declare kind))
  | single {sample : SampleLine} (silent : declaredName? line = none)
      (sampled : sampledName? line = some sample.name) (isName : MetricName sample.name.toList)
      (labelNames : ∀ pair ∈ sample.labels.pairs, LabelName pair.1.toList)
      (loose : Loose b.kindOf sample.name) :
      Effect b line (b.change sample.name (.single ⟨sample.labels, .single sample.value⟩))
  | record {sample : SampleLine} {family : String} {part : GroupPart}
      (silent : declaredName? line = none) (sampled : sampledName? line = some (part.lineName family))
      (labelNames : ∀ pair ∈ sample.labels.pairs, LabelName pair.1.toList)
      (fits : part.Fits (b.kindOf family)) (clear : part.Clear b.kindOf family) :
      Effect b line (b.change family
        (.record ((sample.labels.erase "le").erase "quantile") part sample.value))

theorem LineText.metricName {line : List Char} {sample : SampleLine} (h : LineText line sample) :
    MetricName sample.name.toList := by
  cases h with
  | bare isName => rwa [String.toList_ofList]
  | labelled isName => rwa [String.toList_ofList]

theorem PairText.labelName {text : List Char} {pair : String × String} (h : PairText text pair) :
    LabelName pair.1.toList := by
  cases h with
  | mk name => rwa [String.toList_ofList]

theorem PairsText.labelName {text : List Char} {pairs : List (String × String)}
    (h : PairsText text pairs) : ∀ pair ∈ pairs, LabelName pair.1.toList := by
  induction h with
  | nil => simp
  | last first =>
      intro pair member
      obtain rfl := List.mem_singleton.mp member
      exact first.labelName
  | cons first _ _ _ ih =>
      intro pair member
      rcases List.mem_cons.mp member with rfl | member
      · exact first.labelName
      · exact ih pair member

theorem LineText.labelNames {line : List Char} {sample : SampleLine} (h : LineText line sample) :
    ∀ pair ∈ sample.labels.pairs, LabelName pair.1.toList := by
  cases h with
  | bare => intro pair member; cases member
  | labelled _ inside _ entries =>
      intro pair member
      obtain ⟨_, pairs⟩ := inside
      exact pairs.labelName pair (entries.mem_iff.mp member)

theorem declaredName_of_readSampleLine {line : List Char} {sample : SampleLine}
    (read : readSampleLine (Text.trim line) = .ok sample) : declaredName? line = none := by
  rw [declaredName?]
  split
  next text comment =>
    rw [comment, readSampleLine, List.takeWhile_cons_of_neg (by decide)] at read
    cases read
  next => rfl

theorem effect_of_sample {b b' : Builder} {line : List Char} {sample : SampleLine}
    (read : readSampleLine (Text.trim line) = .ok sample) (taken : b.sample sample = .ok b') :
    Effect b line b' := by
  have text := readSampleLine_sound read
  have silent := declaredName_of_readSampleLine read
  have sampled : sampledName? line = some sample.name := by rw [sampledName?, read]
  rcases Builder.sample_cases taken with ⟨loose, rfl⟩ | ⟨family, part, name, fits, clear, rfl⟩
  · exact .single silent sampled text.metricName text.labelNames loose
  · exact .record silent (name ▸ sampled) text.labelNames fits clear

theorem helpText_of_comment {text keyword rest name : List Char} {tail? : Option (List Char)}
    (ends : EndsSolid ('#' :: text))
    (words : Text.splitWord (Text.trimStart text) = (keyword, some rest))
    (parts : Text.splitWord (Text.trimStart rest) = (name, tail?)) :
    HelpText (Builder.unescapeHelp (Text.trimStart (tail?.getD []))) := by
  refine helpText_unescapeHelp (Text.beginsSolid_trimStart _) ?_
  cases tail? with
  | none => simp [EndsSolid, Text.trimStart]
  | some tail =>
      have afterKeyword : rest <:+ text :=
        (Text.splitWord_suffix words).trans (Text.trimStart_suffix text)
      have afterName : tail <:+ rest :=
        (Text.splitWord_suffix parts).trans (Text.trimStart_suffix rest)
      have inside : tail <:+ '#' :: text :=
        (afterName.trans afterKeyword).trans (List.suffix_cons '#' text)
      exact Text.endsSolid_of_suffix ends ((Text.trimStart_suffix tail).trans inside)

theorem effect_of_comment (b : Builder) {line text : List Char}
    (comment : Text.trim line = '#' :: text) : Effect b line (b.comment text) := by
  have ends : EndsSolid ('#' :: text) := comment ▸ Text.endsSolid_trim line
  cases words : Text.splitWord (Text.trimStart text) with
  | mk keyword rest? =>
    cases rest? with
    | none =>
        have silent : declaredName? line = none := by simp [declaredName?, comment, words]
        rw [Builder.comment, words]
        exact .nothing silent
    | some rest =>
        cases parts : Text.splitWord (Text.trimStart rest) with
        | mk name tail? =>
          have trimmed := helpText_of_comment ends words parts
          -- The name that is declared is known before the builder's own case distinction.
          have declared : declaredName? line =
              if keyword = ['T', 'Y', 'P', 'E'] ∧ isMetricName name = true then
                some (String.ofList name) else none := by
            rw [declaredName?, comment]
            simp only [words]
            split
            next same =>
              cases same
              simp [parts]
            next other =>
              rw [if_neg]
              intro given
              rcases given with ⟨rfl, -⟩
              exact other _ rfl
          rw [Builder.comment, words]
          simp only [parts]
          split
          next invalid =>
            refine .nothing ?_
            rw [declared, if_neg fun both => ?_]
            rw [both.2] at invalid
            cases invalid
          next valid =>
            have isName : MetricName (String.ofList name).toList := by
              rw [String.toList_ofList]
              exact isMetricName_iff.mp (by simpa using valid)
            split
            next help =>
              refine .describe ?_ isName ?_
              · rw [declared, if_neg]
                intro given
                rcases given with ⟨type, -⟩
                rw [help] at type
                cases type
              · rwa [String.toList_ofList]
            next =>
              split
              next type =>
                refine .declare _ ?_ isName
                rw [declared, if_pos ⟨type, by simpa using valid⟩]
              next other =>
                refine .nothing ?_
                rw [declared, if_neg fun both => other both.1]

theorem effect_of_readLine {b b' : Builder} {line : List Char} (h : readLine b line = .ok b') :
    Effect b line b' := by
  rw [readLine] at h
  split at h
  next blank =>
    cases h
    exact .nothing (by rw [declaredName?, blank])
  next text comment =>
    cases h
    exact effect_of_comment b comment
  next =>
    cases read : readSampleLine (Text.trim line) with
    | error cause =>
        rw [read] at h
        cases h
    | ok sample =>
        rw [read] at h
        exact effect_of_sample read h

end ProxyMonitor.Exposition
