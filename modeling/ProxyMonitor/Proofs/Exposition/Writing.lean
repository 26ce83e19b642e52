import ProxyMonitor.Exposition.Read
import ProxyMonitor.Proofs.Exposition.Attribution
import ProxyMonitor.Proofs.Exposition.Escaping
import ProxyMonitor.Proofs.Exposition.LineReading
import ProxyMonitor.Proofs.NumberText

namespace ProxyMonitor.Exposition

open Text (BeginsSolid EndsSolid IsWord isBlank)

def spelled (pair : String × String) : List Char × List Char := (pair.1.toList, pair.2.toList)

def sampleText (name : String) (pairs : List (String × String)) (value : Binary64) : List Char :=
  name.toList ++ renderLabelSet (pairs.map spelled) ++ ' ' :: renderValue value

theorem pairText_renderPair {pair : String × String} (label : LabelName pair.1.toList) :
    PairText (renderPair pair.1.toList pair.2.toList) pair := by
  have text := PairText.mk label Text.blanks_nil Text.blanks_nil
    (quotedText_escapeLabelValue pair.2.toList)
  rw [String.ofList_toList, String.ofList_toList] at text
  simpa [renderPair] using text

theorem pairsText_intercalate {pairs : List (String × String)}
    (labels : ∀ pair ∈ pairs, LabelName pair.1.toList) :
    PairsText (List.intercalate [','] ((pairs.map spelled).map fun pair => renderPair pair.1 pair.2))
      pairs := by
  induction pairs with
  | nil => exact .nil
  | cons pair rest ih =>
      have first := pairText_renderPair (labels pair List.mem_cons_self)
      have later := ih fun other member => labels other (List.mem_cons_of_mem _ member)
      cases rest with
      | nil => simpa [spelled] using PairsText.last first Text.blanks_nil
      | cons second rest =>
          rw [List.map_cons, List.map_cons, List.map_cons, List.map_cons, List.intercalate_cons_cons]
          simpa [spelled] using PairsText.cons first Text.blanks_nil Text.blanks_nil later

theorem tailText_renderValue (value : Binary64) :
    TailText (' ' :: renderValue value) value.canonical := by
  have blank : Text.Blanks [' '] := by
    intro c member
    obtain rfl := List.mem_singleton.mp member
    decide
  have text := TailText.bare blank (isWord_renderValue value) (.number (read_renderValue value))
    Text.blanks_nil
  simpa using text

theorem lineText_sampleText {name : String} {pairs : List (String × String)} {labels : Labels}
    (isName : MetricName name.toList) (labelNames : ∀ pair ∈ pairs, LabelName pair.1.toList)
    (entries : labels.pairs.Perm pairs) (value : Binary64) :
    LineText (sampleText name pairs value) ⟨name, labels, value.canonical⟩ := by
  cases pairs with
  | nil =>
      obtain rfl : labels = .empty := Labels.ext_pairs entries.eq_nil
      have text := LineText.bare isName ⟨' ', rfl, by decide⟩ (tailText_renderValue value)
      rw [String.ofList_toList] at text
      simpa [sampleText, renderLabelSet] using text
  | cons pair rest =>
      have distinct := (entries.map Prod.fst).nodup_iff.mp labels.distinct
      have text := LineText.labelled isName
        (.mk Text.blanks_nil (pairsText_intercalate labelNames)) distinct entries
        (tailText_renderValue value)
      rw [String.ofList_toList] at text
      simpa [sampleText, renderLabelSet] using text

theorem beginsSolid_sampleText {name : String} (isName : MetricName name.toList)
    (pairs : List (String × String)) (value : Binary64) :
    BeginsSolid (sampleText name pairs value) := by
  rw [sampleText, List.append_assoc]
  exact isName.isWord.beginsSolid _

theorem endsSolid_sampleText (name : String) (pairs : List (String × String)) (value : Binary64) :
    EndsSolid (sampleText name pairs value) := by
  rw [sampleText, ← List.singleton_append, ← List.append_assoc]
  exact (isWord_renderValue value).endsSolid _

theorem readLine_sampleText {name : String} {pairs : List (String × String)} {labels : Labels}
    (b : Builder) (isName : MetricName name.toList)
    (labelNames : ∀ pair ∈ pairs, LabelName pair.1.toList) (entries : labels.pairs.Perm pairs)
    (value : Binary64) :
    readLine b (sampleText name pairs value) = b.sample ⟨name, labels, value.canonical⟩ := by
  have read := readSampleLine_complete (lineText_sampleText isName labelNames entries value)
  have whole := Text.trim_eq_self (beginsSolid_sampleText isName pairs value)
    (endsSolid_sampleText name pairs value)
  obtain ⟨c, rest, chars⟩ := List.exists_cons_of_ne_nil isName.isWord.1
  have inName := isName.all_isMetricChar c (chars ▸ List.mem_cons_self)
  have noComment : c ≠ '#' := by
    intro same
    subst same
    revert inName
    decide
  rw [readLine, whole]
  split
  next empty => simp [sampleText] at empty
  next text comment =>
    rw [sampleText, chars] at comment
    exact absurd (List.cons.inj comment).1 noComment
  next =>
    rw [read]
    rfl

theorem newline_notMem_of_isWord {word : List Char} (h : IsWord word) : '\n' ∉ word := by
  intro inside
  have solid := h.2 '\n' inside
  revert solid
  decide

theorem newline_notMem_renderPair {name : List Char} (label : LabelName name) (value : List Char) :
    '\n' ∉ renderPair name value := by
  simp [renderPair, newline_notMem_of_isWord label.isWord, newline_notMem_escapeLabelValue]

theorem newline_notMem_intercalate {pieces : List (List Char)}
    (h : ∀ piece ∈ pieces, '\n' ∉ piece) : '\n' ∉ List.intercalate [','] pieces := by
  induction pieces with
  | nil => exact List.not_mem_nil
  | cons piece rest ih =>
      have first := h piece List.mem_cons_self
      have later := ih fun other member => h other (List.mem_cons_of_mem _ member)
      cases rest with
      | nil => rwa [List.intercalate_singleton]
      | cons second rest =>
          rw [List.intercalate_cons_cons]
          simp [first, later]

theorem newline_notMem_sampleText {name : String} (isName : MetricName name.toList)
    {pairs : List (String × String)} (labelNames : ∀ pair ∈ pairs, LabelName pair.1.toList)
    (value : Binary64) : '\n' ∉ sampleText name pairs value := by
  have inside : '\n' ∉ renderLabelSet (pairs.map spelled) := by
    rw [renderLabelSet]
    split
    · exact List.not_mem_nil
    · have pieces : '\n' ∉ List.intercalate [',']
          ((pairs.map spelled).map fun pair => renderPair pair.1 pair.2) := by
        refine newline_notMem_intercalate fun piece member => ?_
        rw [List.map_map] at member
        obtain ⟨pair, held, rfl⟩ := List.mem_map.mp member
        exact newline_notMem_renderPair (labelNames pair held) _
      simp only [List.cons_append, List.mem_cons, List.mem_append, not_or]
      exact ⟨by decide, pieces, by decide⟩
  simp [sampleText, newline_notMem_of_isWord isName.isWord, inside,
    newline_notMem_of_isWord (isWord_renderValue value)]

def commentText (keyword : List Char) (name : String) (tail : List Char) : List Char :=
  '#' :: ' ' :: keyword ++ ' ' :: name.toList ++ ' ' :: tail

theorem readLine_commentText (b : Builder) {keyword tail : List Char} {name : String}
    (word : IsWord keyword) (isName : MetricName name.toList) (begins : BeginsSolid tail)
    (ends : EndsSolid tail) (nonempty : tail ≠ []) :
    readLine b (commentText keyword name tail) = .ok (
      if keyword = ['H', 'E', 'L', 'P'] then
        b.modifyFamily name fun draft =>
          { draft with help := String.ofList (Builder.unescapeHelp tail) }
      else if keyword = ['T', 'Y', 'P', 'E'] then
        b.modifyFamily name fun draft =>
          { draft with kind := .ofToken (String.ofList (Text.trim tail)) }
      else b) := by
  have blank : isBlank ' ' = true := by decide
  have whole : Text.trim (commentText keyword name tail) = commentText keyword name tail := by
    refine Text.trim_eq_self ?_ ?_
    · intro c first
      cases first
      decide
    · have apart : commentText keyword name tail =
          ('#' :: ' ' :: keyword ++ ' ' :: name.toList ++ [' ']) ++ tail := by simp [commentText]
      rw [apart]
      exact Text.endsSolid_append ends nonempty _
  have start : Text.trimStart (' ' :: (keyword ++ ' ' :: (name.toList ++ ' ' :: tail))) =
      keyword ++ ' ' :: (name.toList ++ ' ' :: tail) :=
    (List.dropWhile_cons_of_pos blank).trans (Text.trimStart_eq_self (word.beginsSolid _))
  have second : Text.trimStart (name.toList ++ ' ' :: tail) = name.toList ++ ' ' :: tail :=
    Text.trimStart_eq_self (isName.isWord.beginsSolid _)
  rw [readLine, whole, commentText]
  simp only [List.append_assoc, List.cons_append]
  rw [Builder.comment, start, Text.splitWord_append word blank]
  simp only [second, Text.splitWord_append isName.isWord blank, Option.getD_some,
    Text.trimStart_eq_self begins, isMetricName_iff.mpr isName, String.ofList_toList]
  rfl

theorem newline_notMem_commentText {keyword tail : List Char} {name : String}
    (word : IsWord keyword) (isName : MetricName name.toList) (inside : '\n' ∉ tail) :
    '\n' ∉ commentText keyword name tail := by
  simp [commentText, newline_notMem_of_isWord word, newline_notMem_of_isWord isName.isWord, inside]

def helpLine (name help : String) : List Char :=
  commentText ['H', 'E', 'L', 'P'] name (escapeHelp help.toList)

def kindLine (name : String) (kind : MetricKind) : List Char :=
  commentText ['T', 'Y', 'P', 'E'] name kind.token.toList

theorem readLine_helpLine (b : Builder) {name help : String} (isName : MetricName name.toList)
    (trimmed : HelpText help.toList) (nonempty : help ≠ "") :
    readLine b (helpLine name help) = .ok (b.change name (.describe help)) := by
  have written : escapeHelp help.toList ≠ [] := by
    intro empty
    have decoded := unescapeHelp_escapeHelp help.toList
    rw [empty] at decoded
    exact nonempty (String.toList_eq_nil_iff.mp decoded.symm)
  rw [helpLine, readLine_commentText b (by decide) isName trimmed.beginsSolid_escapeHelp
    trimmed.endsSolid_escapeHelp written, if_pos rfl, unescapeHelp_escapeHelp,
    String.ofList_toList]
  rfl

theorem isWord_token (kind : MetricKind) : IsWord kind.token.toList := by
  cases kind <;> decide +kernel

theorem ofToken_token (kind : MetricKind) : MetricKind.ofToken kind.token = kind := by
  cases kind <;> decide

theorem readLine_kindLine (b : Builder) {name : String} (isName : MetricName name.toList)
    (kind : MetricKind) :
    readLine b (kindLine name kind) = .ok (b.change name (.declare kind)) := by
  have begins : BeginsSolid kind.token.toList := by
    simpa using (isWord_token kind).beginsSolid []
  have ends : EndsSolid kind.token.toList := (isWord_token kind).endsSolid []
  rw [kindLine, readLine_commentText b (by decide) isName begins ends (isWord_token kind).1,
    if_neg (by decide), if_pos rfl, Text.trim_eq_self begins ends, String.ofList_toList,
    ofToken_token]
  rfl

def GroupPart.mark (part : GroupPart) : List (String × String) :=
  part.mark?.toList.map fun mark => (mark.1, String.ofList (renderValue mark.2))

def GroupPart.marked (labels : Labels) : GroupPart → Labels
  | bucket upperBound => labels.insert "le" (String.ofList (renderValue upperBound))
  | quantile level => labels.insert "quantile" (String.ofList (renderValue level))
  | sum => labels
  | count => labels

/-- What reading makes of a part: the sign of a NaN is lost. -/
def GroupPart.canonical : GroupPart → GroupPart
  | bucket upperBound => bucket upperBound.canonical
  | quantile level => quantile level.canonical
  | sum => sum
  | count => count

def partText (name : String) (labels : Labels) (part : GroupPart × Binary64) : List Char :=
  sampleText (part.1.lineName name) (labels.pairs ++ part.1.mark) part.2

structure GroupLabels (labels : Labels) : Prop where
  noBound : labels.contains "le" = false
  noQuantile : labels.contains "quantile" = false

instance (labels : Labels) : Decidable (GroupLabels labels) :=
  decidable_of_iff (labels.contains "le" = false ∧ labels.contains "quantile" = false)
    ⟨fun h => ⟨h.1, h.2⟩, fun h => ⟨h.1, h.2⟩⟩

theorem GroupPart.marked_perm (part : GroupPart) {labels : Labels} (plain : GroupLabels labels) :
    (part.marked labels).pairs.Perm (labels.pairs ++ part.mark) := by
  cases part with
  | bucket upperBound =>
      exact (Labels.insert_perm plain.noBound).trans (List.perm_append_singleton _ _).symm
  | quantile level =>
      exact (Labels.insert_perm plain.noQuantile).trans (List.perm_append_singleton _ _).symm
  | sum => exact .of_eq (List.append_nil _).symm
  | count => exact .of_eq (List.append_nil _).symm

theorem GroupPart.erase_marked (part : GroupPart) {labels : Labels} (plain : GroupLabels labels) :
    ((part.marked labels).erase "le").erase "quantile" = labels := by
  have noBound := Labels.erase_of_absent plain.noBound
  have noQuantile := Labels.erase_of_absent plain.noQuantile
  cases part with
  | bucket upperBound => rw [marked, Labels.erase_insert plain.noBound, noQuantile]
  | quantile level =>
      have other : (labels.insert "quantile" (String.ofList (renderValue level))).contains "le" =
          false :=
        (Labels.contains_insert plain.noQuantile (by decide) _).trans plain.noBound
      rw [marked, Labels.erase_of_absent other, Labels.erase_insert plain.noQuantile]
  | sum => rw [marked, noBound, noQuantile]
  | count => rw [marked, noBound, noQuantile]

theorem GroupPart.labelName_mark {part : GroupPart} :
    ∀ pair ∈ part.mark, LabelName pair.1.toList := by
  intro pair member
  cases part with
  | bucket upperBound =>
      obtain rfl := List.mem_singleton.mp member
      exact (by decide : LabelName "le".toList)
  | quantile level =>
      obtain rfl := List.mem_singleton.mp member
      exact (by decide : LabelName "quantile".toList)
  | sum => cases member
  | count => cases member

theorem GroupPart.metricName_lineName (part : GroupPart) {name : String}
    (isName : MetricName name.toList) : MetricName (part.lineName name).toList := by
  cases part with
  | bucket upperBound =>
      rw [lineName, String.toList_append]
      exact isName.append (by decide)
  | quantile level => exact isName
  | sum =>
      rw [lineName, String.toList_append]
      exact isName.append (by decide)
  | count =>
      rw [lineName, String.toList_append]
      exact isName.append (by decide)

theorem GroupPart.readLabelValue_marked {part : GroupPart} {labels : Labels}
    (plain : GroupLabels labels) (name : String) (value : Binary64) :
    ∀ mark ∈ part.canonical.mark?,
      Builder.readLabelValue ⟨name, part.marked labels, value⟩ mark.1 = .ok mark.2 := by
  intro mark held
  cases part with
  | bucket upperBound =>
      cases held
      have entry : ("le", String.ofList (renderValue upperBound)) ∈
          (labels.insert "le" (String.ofList (renderValue upperBound))).pairs :=
        (Labels.insert_perm plain.noBound).mem_iff.mpr List.mem_cons_self
      simp only [Builder.readLabelValue, marked, Labels.get?_of_mem entry, readValue,
        String.toList_ofList, read_renderValue]
  | quantile level =>
      cases held
      have entry : ("quantile", String.ofList (renderValue level)) ∈
          (labels.insert "quantile" (String.ofList (renderValue level))).pairs :=
        (Labels.insert_perm plain.noQuantile).mem_iff.mpr List.mem_cons_self
      simp only [Builder.readLabelValue, marked, Labels.get?_of_mem entry, readValue,
        String.toList_ofList, read_renderValue]
  | sum => cases held
  | count => cases held

section

variable {b : Builder} {name : String} {labels : Labels} {part : GroupPart}

theorem readLine_partText_eq (b : Builder) (isName : MetricName name.toList)
    (labelNames : ∀ pair ∈ labels.pairs, LabelName pair.1.toList) (plain : GroupLabels labels)
    (part : GroupPart) (value : Binary64) :
    readLine b (partText name labels (part, value)) =
      b.sample ⟨part.lineName name, part.marked labels, value.canonical⟩ := by
  refine readLine_sampleText b (part.metricName_lineName isName) ?_ (part.marked_perm plain) value
  intro pair member
  rcases List.mem_append.mp member with own | mark
  · exact labelNames pair own
  · exact GroupPart.labelName_mark pair mark

theorem readLine_partText (isName : MetricName name.toList)
    (labelNames : ∀ pair ∈ labels.pairs, LabelName pair.1.toList) (plain : GroupLabels labels)
    (fits : part.Fits (b.kindOf name)) (clear : part.Clear b.kindOf name) (value : Binary64) :
    readLine b (partText name labels (part, value)) =
      .ok (b.change name (.record labels part.canonical value.canonical)) := by
  have sameName : part.canonical.lineName name = part.lineName name := by cases part <;> rfl
  have sameFits : part.canonical.Fits (b.kindOf name) := by cases part <;> exact fits
  have sameClear : part.canonical.Clear b.kindOf name := by cases part <;> exact clear
  have taken : b.sample ⟨part.lineName name, part.marked labels, value.canonical⟩ = _ :=
    Builder.sample_of_part sameName.symm sameFits sameClear
      (GroupPart.readLabelValue_marked plain _ _)
  rw [readLine_partText_eq b isName labelNames plain, taken, GroupPart.erase_marked part plain]

theorem readLine_partText_of_shadowed (isName : MetricName name.toList)
    (labelNames : ∀ pair ∈ labels.pairs, LabelName pair.1.toList) (plain : GroupLabels labels)
    (shadowed : ¬ part.Clear b.kindOf name) (value : Binary64) :
    readLine b (partText name labels (part, value)) =
      .error (.invalidLabel ("missing " ++ "quantile")) := by
  rw [readLine_partText_eq b isName labelNames plain]
  have absent := Labels.get?_eq_none plain.noQuantile
  cases part with
  | quantile level => exact absurd trivial shadowed
  | bucket upperBound =>
      refine Builder.sample_of_shadowed (not_not.mp shadowed) (Labels.get?_eq_none ?_)
      exact (Labels.contains_insert plain.noBound (by decide) _).trans plain.noQuantile
  | sum => exact Builder.sample_of_shadowed (not_not.mp shadowed) absent
  | count => exact Builder.sample_of_shadowed (not_not.mp shadowed) absent

end

end ProxyMonitor.Exposition
