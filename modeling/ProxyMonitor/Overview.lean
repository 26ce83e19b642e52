import ProxyMonitor.Distribution

namespace ProxyMonitor

def notAvailable : String := "Not available"

structure StatBlock where
  title : String
  value : String
  units : Option String
  hint : String

def StatBlock.isAvailable (block : StatBlock) : Bool := block.value != notAvailable

def formatCount (x : Binary64) : String :=
  if x.isWhole && x.abs.lt (.ofNat 1000000000000000) then x.toFixed 0 else toString x

structure Overview where
  blocks : List StatBlock
  responseTimes : List Bar

namespace Overview

def thousandths (x : Binary64) : String := x.toFixed 3

def uptime (nowMs : Nat) (start : Binary64) : Binary64 :=
  ((Binary64.ofNat nowMs).div (.ofNat 1000)).sub start

/-- Used cache memory in percent; a total of zero has no percentage. -/
def cacheUsage? (used total : Option Binary64) : Option Binary64 :=
  match used, total with
  | some used, some total =>
    if total.same .zero then none else some ((used.div total).mul (.ofNat 100))
  | _, _ => none

def block (title : String) (value : Option String) (units : Option String) (hint : String) :
    StatBlock :=
  ⟨title, value.getD notAvailable, units, hint⟩

def ofSnapshot (snapshot : Snapshot) (nowMs : Nat) (totalRequests : Binary64) : Overview :=
  let start := MetricView.first snapshot MetricName.startTime
  let used := (snapshot.cacheMetric "mem_used_bytes").value?
  let total := (snapshot.cacheMetric "mem_total_bytes").value?
  let items := (snapshot.cacheMetric "items").value?
  let fetched := MetricView.nested snapshot MetricName.document "status" "fetched"
  let forced := MetricView.nested snapshot MetricName.document "status" "forced"
  let errors := MetricView.first snapshot MetricName.errors
  let virtualMemory := MetricView.first snapshot MetricName.virtualMemory
  let cpu := MetricView.first snapshot MetricName.cpuSeconds
  { blocks :=
      [block "Uptime" (start.value?.map fun s => thousandths (uptime nowMs s)) "Seconds"
        (start.helpOr "Time since the proxy started"),
      block "Cache Usage" ((cacheUsage? used total).map thousandths) "%"
        "Percentage of cache memory used",
      block "Cache Mem" (total.map fun t => thousandths (t.div (.ofNat 1000000))) "Mb"
        "Total cache memory",
      block "Cached Documents" (items.map formatCount) none "Number of items in cache",
      block "Total Requests" (formatCount totalRequests) none "Total number of requests made",
      block "Fetched (Docs)" (formatCount (fetched.valueOr .zero)) none
        "Number of unforced fetches",
      block "Forced (Docs)" (formatCount (forced.valueOr .zero)) none "Number of forced fetches",
      block "Errors" (errors.value?.map formatCount) none (errors.helpOr "Total errors"),
      block "Virtual Memory" (virtualMemory.value?.map formatCount) "Bytes"
        (virtualMemory.helpOr "Virtual memory size in bytes"),
      block "Total CPU Time" (cpu.value?.map toString) "Seconds"
        (cpu.helpOr "Total user and system CPU time")]
    responseTimes := Distribution.responseTimes snapshot }

def block? (overview : Overview) (title : String) : Option StatBlock :=
  overview.blocks.find? fun block => block.title == title

end Overview

end ProxyMonitor
