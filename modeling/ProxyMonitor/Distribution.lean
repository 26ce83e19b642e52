import ProxyMonitor.Binary64.Arithmetic
import ProxyMonitor.Decimal
import ProxyMonitor.Lookup

namespace ProxyMonitor

structure Bar where
  upperBound : Binary64
  count : Nat
  deriving DecidableEq

namespace Bar

def label (bar : Bar) : String :=
  if bar.upperBound.isInfinite then "+Inf" else toString bar.upperBound

end Bar

namespace Distribution

open Binary64

/-- Adds a count to the first bar of a bound, at most up to the largest word. -/
def tally (bound : Binary64) (count : Nat) : List Bar → List Bar
  | [] => [⟨bound, count⟩]
  | bar :: rest =>
    if bar.upperBound.same bound then
      { bar with count := Nat.min (bar.count + count) Word.greatest } :: rest
    else bar :: tally bound count rest

/-- The count of a bucket alone, given the cumulative count before it. -/
def ownCount (previous cumulative : Binary64) : Nat := ((cumulative.sub previous).max .zero).toWord

def tallyBuckets : Binary64 → List Bar → List Bucket → List Bar
  | _, bars, [] => bars
  | previous, bars, bucket :: rest =>
    tallyBuckets bucket.cumulative
      (tally bucket.upperBound (ownCount previous bucket.cumulative) bars) rest

def responseTimes (snapshot : Snapshot) : List Bar :=
  match snapshot.family? MetricName.apiResponseTime with
  | none => []
  | some family =>
    let bars := (family.samples.filterMap Sample.buckets?).foldl (tallyBuckets .zero) []
    bars.mergeSort fun a b => a.upperBound.totalKey ≤ b.upperBound.totalKey

end Distribution

end ProxyMonitor
