import Std.Data.HashMap
import ProxyMonitor.Exposition.Line

/-! Families under construction: lines are gathered by family, and by label set within one. -/

namespace ProxyMonitor.Exposition

structure GroupDraft where
  labels : Labels
  buckets : List Bucket
  quantiles : List Quantile
  sum : Option Binary64
  count : Option Binary64

inductive SampleDraft where
  | single (sample : Sample)
  | group (group : GroupDraft)

structure FamilyDraft where
  name : String
  help : String
  kind : MetricKind
  samples : Array SampleDraft
  groups : Std.HashMap (List (String × String)) Nat

/-- Families in order of first appearance, with the place of each name. -/
structure Builder where
  families : Array FamilyDraft
  index : Std.HashMap String Nat

inductive GroupPart where
  | bucket (upperBound : Binary64)
  | quantile (quantile : Binary64)
  | sum
  | count

structure GroupTarget where
  family : String
  part : GroupPart

namespace GroupDraft

def empty (labels : Labels) : GroupDraft := ⟨labels, [], [], none, none⟩

def record (group : GroupDraft) (value : Binary64) : GroupPart → GroupDraft
  | .bucket upperBound => { group with buckets := group.buckets ++ [⟨upperBound, value⟩] }
  | .quantile quantile => { group with quantiles := group.quantiles ++ [⟨quantile, value⟩] }
  | .sum => { group with sum := some value }
  | .count => { group with count := some value }

/-- A histogram without a count line has the count of its last bucket. -/
def finish (kind : MetricKind) (group : GroupDraft) : Sample :=
  let sum := group.sum.getD .zero
  if kind = .summary then
    ⟨group.labels, .summary group.quantiles sum (group.count.getD .zero)⟩
  else
    let last := group.buckets.getLast?.map Bucket.cumulative
    ⟨group.labels, .histogram group.buckets sum ((group.count <|> last).getD .zero)⟩

end GroupDraft

namespace FamilyDraft

def empty (name : String) : FamilyDraft := ⟨name, "", .unknown, #[], {}⟩

def addSample (draft : FamilyDraft) (sample : Sample) : FamilyDraft :=
  { draft with samples := draft.samples.push (.single sample) }

def ensureGroup (draft : FamilyDraft) (labels : Labels) : FamilyDraft × Nat :=
  match draft.groups[labels.pairs]? with
  | some place => (draft, place)
  | none =>
    let place := draft.samples.size
    ({ draft with
        samples := draft.samples.push (.group (.empty labels))
        groups := draft.groups.insert labels.pairs place }, place)

def modifyGroup (draft : FamilyDraft) (labels : Labels) (f : GroupDraft → GroupDraft) :
    FamilyDraft :=
  let (draft, place) := draft.ensureGroup labels
  { draft with
      samples := draft.samples.modify place fun
        | .group group => .group (f group)
        | .single sample => .single sample }

def finish (draft : FamilyDraft) : Family :=
  ⟨draft.name, draft.help, draft.kind, draft.samples.toList.map fun
    | .single sample => sample
    | .group group => group.finish draft.kind⟩

end FamilyDraft

namespace Builder

def empty : Builder := ⟨#[], {}⟩

def ensureFamily (b : Builder) (name : String) : Builder × Nat :=
  match b.index[name]? with
  | some place => (b, place)
  | none =>
    let place := b.families.size
    (⟨b.families.push (.empty name), b.index.insert name place⟩, place)

def modifyFamily (b : Builder) (name : String) (f : FamilyDraft → FamilyDraft) : Builder :=
  let (b, place) := b.ensureFamily name
  { b with families := b.families.modify place f }

def kind? (b : Builder) (name : String) : Option MetricKind :=
  (b.index[name]?.bind fun place => b.families[place]?).map FamilyDraft.kind

def unescapeHelp : List Char → List Char
  | [] => []
  | '\\' :: 'n' :: rest => '\n' :: unescapeHelp rest
  | '\\' :: '\\' :: rest => '\\' :: unescapeHelp rest
  | '\\' :: c :: rest => '\\' :: c :: unescapeHelp rest
  | c :: rest => c :: unescapeHelp rest

def comment (b : Builder) (text : List Char) : Builder :=
  match Text.splitWord (Text.trimStart text) with
  | (_, none) => b
  | (keyword, some rest) =>
    let (name, tail) := Text.splitWord (Text.trimStart rest)
    let tail := Text.trimStart (tail.getD [])
    if !isMetricName name then b
    else if keyword = ['H', 'E', 'L', 'P'] then
      b.modifyFamily (String.ofList name) fun draft =>
        { draft with help := String.ofList (unescapeHelp tail) }
    else if keyword = ['T', 'Y', 'P', 'E'] then
      b.modifyFamily (String.ofList name) fun draft =>
        { draft with kind := .ofToken (String.ofList (Text.trim tail)) }
    else b

def stripSuffix? (name suffix : String) : Option String :=
  if suffix.toList <:+ name.toList then
    some (String.ofList (name.toList.take (name.length - suffix.length)))
  else none

def readLabelValue (line : SampleLine) (label : String) : Except Cause Binary64 :=
  match line.labels.get? label with
  | none => .error (.invalidLabel ("missing " ++ label))
  | some text => readValue text.toList

def bucketBase? (b : Builder) (name : String) : Option String :=
  (stripSuffix? name "_bucket").filter fun base => b.kind? base = some .histogram

def totalTarget? (b : Builder) (name : String) : Option GroupTarget :=
  let target : Option GroupTarget := match stripSuffix? name "_sum" with
    | some base => some ⟨base, .sum⟩
    | none => (stripSuffix? name "_count").map (⟨·, .count⟩)
  target.filter fun target =>
    b.kind? target.family = some .histogram ∨ b.kind? target.family = some .summary

def groupTarget (b : Builder) (line : SampleLine) : Except Cause (Option GroupTarget) :=
  if b.kind? line.name = some .summary then do
    let quantile ← readLabelValue line "quantile"
    return some ⟨line.name, .quantile quantile⟩
  else match b.bucketBase? line.name with
    | some base => do
      let upperBound ← readLabelValue line "le"
      return some ⟨base, .bucket upperBound⟩
    | none => .ok (b.totalTarget? line.name)

def sample (b : Builder) (line : SampleLine) : Except Cause Builder := do
  match ← b.groupTarget line with
  | some target =>
    let labels := (line.labels.erase "le").erase "quantile"
    return b.modifyFamily target.family (·.modifyGroup labels (·.record line.value target.part))
  | none =>
    return b.modifyFamily line.name (·.addSample ⟨line.labels, .single line.value⟩)

def finish (b : Builder) : List Family := b.families.toList.map FamilyDraft.finish

end Builder

end ProxyMonitor.Exposition
