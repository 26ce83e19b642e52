import ProxyMonitor.Decimal
import ProxyMonitor.Family

namespace ProxyMonitor.Exposition

def renderValue (x : Binary64) : List Char :=
  match x with
  | .nan _ => ['N', 'a', 'N']
  | .infinite false => ['+', 'I', 'n', 'f']
  | .infinite true => ['-', 'I', 'n', 'f']
  | x => x.text

def replaceChar (c : Char) (replacement text : List Char) : List Char :=
  text.flatMap fun d => if d = c then replacement else [d]

/-- Backslashes come first, so that those of the other escapes stay single. -/
def escapeHelp (text : List Char) : List Char :=
  replaceChar '\n' ['\\', 'n'] (replaceChar '\\' ['\\', '\\'] text)

def escapeLabelValue (text : List Char) : List Char :=
  replaceChar '\n' ['\\', 'n']
    (replaceChar '"' ['\\', '"'] (replaceChar '\\' ['\\', '\\'] text))

def renderPair (name value : List Char) : List Char :=
  name ++ '=' :: '"' :: escapeLabelValue value ++ ['"']

def renderLabelSet (pairs : List (List Char × List Char)) : List Char :=
  if pairs = [] then []
  else '{' :: List.intercalate [','] (pairs.map fun pair => renderPair pair.1 pair.2) ++ ['}']

def renderLine (name : List Char) (labels : Labels) (extra : List (List Char × List Char))
    (value : Binary64) : List Char :=
  let pairs := labels.pairs.map fun pair => (pair.1.toList, pair.2.toList)
  name ++ renderLabelSet (pairs ++ extra) ++ ' ' :: renderValue value ++ ['\n']

def renderTotals (name : List Char) (labels : Labels) (sum count : Binary64) : List Char :=
  renderLine (name ++ "_sum".toList) labels [] sum ++
    renderLine (name ++ "_count".toList) labels [] count

def renderSample (name : List Char) (sample : Sample) : List Char :=
  match sample.value with
  | .single value => renderLine name sample.labels [] value
  | .histogram buckets sum count =>
    (buckets.flatMap fun bucket =>
      renderLine (name ++ "_bucket".toList) sample.labels
        [("le".toList, renderValue bucket.upperBound)] bucket.cumulative) ++
      renderTotals name sample.labels sum count
  | .summary quantiles sum count =>
    (quantiles.flatMap fun quantile =>
      renderLine name sample.labels
        [("quantile".toList, renderValue quantile.quantile)] quantile.value) ++
      renderTotals name sample.labels sum count

def renderHelp (family : Family) : List Char :=
  if family.help = "" then []
  else "# HELP ".toList ++ family.name.toList ++ ' ' :: escapeHelp family.help.toList ++ ['\n']

def renderKind (family : Family) : List Char :=
  if family.kind = .unknown then []
  else "# TYPE ".toList ++ family.name.toList ++ ' ' :: family.kind.token.toList ++ ['\n']

def renderFamily (family : Family) : List Char :=
  renderHelp family ++ renderKind family ++
    family.samples.flatMap (renderSample family.name.toList)

def render (families : List Family) : String := String.ofList (families.flatMap renderFamily)

end ProxyMonitor.Exposition
