import ProxyMonitor.Family

namespace ProxyMonitor

abbrev Snapshot := List Family

namespace MetricName

def errors := "errors"
def apiRequests := "api_requests"
def apiResponseTime := "api_response_time"
def cacheMetrics := "cache_metrics"
def document := "document"
def traffic := "traffic"
def cpuSeconds := "process_cpu_seconds_total"
def residentMemory := "process_resident_memory_bytes"
def startTime := "process_start_time_seconds"
def virtualMemory := "process_virtual_memory_bytes"

end MetricName

namespace Family

def withLabel? (family : Family) (label value : String) : Option Sample :=
  family.samples.find? fun sample => sample.label? label == some value

end Family

namespace Snapshot

def family? (snapshot : Snapshot) (name : String) : Option Family :=
  snapshot.find? fun family => family.name == name

def sample? (snapshot : Snapshot) (name label value : String) : Option Sample :=
  (snapshot.family? name).bind (·.withLabel? label value)

def buckets? (snapshot : Snapshot) (name label value : String) : Option (List Bucket) :=
  (snapshot.sample? name label value).bind Sample.buckets?

end Snapshot

structure MetricView where
  family : Option Family
  sample : Option Sample

namespace MetricView

def first (snapshot : Snapshot) (name : String) : MetricView :=
  let family := snapshot.family? name
  ⟨family, family.bind fun family => family.samples.head?⟩

def nested (snapshot : Snapshot) (name label value : String) : MetricView :=
  let family := snapshot.family? name
  ⟨family, family.bind (·.withLabel? label value)⟩

def isAvailable (view : MetricView) : Bool := view.sample.isSome

def value? (view : MetricView) : Option Binary64 := view.sample.map Sample.number

def valueOr (view : MetricView) (default : Binary64) : Binary64 := view.value?.getD default

def helpOr (view : MetricView) (default : String) : String :=
  match view.family with
  | some family => if family.help = "" then default else family.help
  | none => default

end MetricView

namespace Snapshot

def apiRequests (snapshot : Snapshot) (method : String) : Binary64 :=
  (MetricView.nested snapshot MetricName.apiRequests "rpc_method" method).valueOr .zero

def cacheMetric (snapshot : Snapshot) (metric : String) : MetricView :=
  MetricView.nested snapshot MetricName.cacheMetrics "metric" metric

end Snapshot

end ProxyMonitor
