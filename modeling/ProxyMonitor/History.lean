import ProxyMonitor.Lookup
import ProxyMonitor.Rate
import ProxyMonitor.Window

namespace ProxyMonitor

inductive Series where
  | requestRate
  | residentMemory
  | fetchedRate
  | servedRate
  deriving DecidableEq

namespace Series

def all : List Series := [requestRate, residentMemory, fetchedRate, servedRate]

def title : Series → String
  | requestRate => "Requests/s"
  | residentMemory => "Resident Memory"
  | fetchedRate => "Bytes Fetched/s"
  | servedRate => "Bytes Served/s"

end Series

structure HistoryOptions where
  capacity : Nat
  periodMs : Nat
  basis : RateBasis
  resetPolicy : ResetPolicy
  apiMethods : List String
  deriving DecidableEq

namespace HistoryOptions

def default : HistoryOptions where
  capacity := Window.defaultCapacity
  periodMs := 5000
  basis := .nominal
  resetPolicy := .rebaseline
  apiMethods :=
    ["img_proxy_fetch", "img_proxy_describe", "img_proxy_report", "img_proxy_describe_report"]

def meter (options : HistoryOptions) : RateMeter :=
  .new options.periodMs options.basis options.resetPolicy

end HistoryOptions

structure History where
  requests : Window
  memory : Window
  fetched : Window
  served : Window
  requestMeter : RateMeter
  fetchedMeter : RateMeter
  servedMeter : RateMeter
  apiMethods : List String
  deriving DecidableEq

namespace History

def new (options : HistoryOptions) : History where
  requests := .new options.capacity
  memory := .new options.capacity
  fetched := .new options.capacity
  served := .new options.capacity
  requestMeter := options.meter
  fetchedMeter := options.meter
  servedMeter := options.meter
  apiMethods := options.apiMethods

def window (history : History) : Series → Window
  | .requestRate => history.requests
  | .residentMemory => history.memory
  | .fetchedRate => history.fetched
  | .servedRate => history.served

/-- The request counters of the methods added up in order; none if the family is missing. A sum of
no terms is the negative zero, the neutral summand. -/
def totalRequests? (history : History) (snapshot : Snapshot) : Option Binary64 :=
  (snapshot.family? MetricName.apiRequests).map fun _ =>
    (history.apiMethods.map snapshot.apiRequests).foldl .add .negativeZero

def extend (window : Window) (nowMs : Nat) : Option Binary64 → Window
  | some value => window.push ⟨nowMs, value⟩
  | none => window

def traffic? (snapshot : Snapshot) (metric : String) : Option Binary64 :=
  (MetricView.nested snapshot MetricName.traffic "metric" metric).value?

def memory? (snapshot : Snapshot) : Option Binary64 :=
  (MetricView.first snapshot MetricName.residentMemory).value?.filter (!·.same .zero)

def record (history : History) (snapshot : Snapshot) (nowMs : Nat) : History :=
  let (requestMeter, requestRate) :=
    history.requestMeter.observe (history.totalRequests? snapshot) nowMs
  let (fetchedMeter, fetchedRate) :=
    history.fetchedMeter.observe (traffic? snapshot "fetched") nowMs
  let (servedMeter, servedRate) :=
    history.servedMeter.observe (traffic? snapshot "served") nowMs
  { history with
    requests := extend history.requests nowMs requestRate
    memory := extend history.memory nowMs (memory? snapshot)
    fetched := extend history.fetched nowMs fetchedRate
    served := extend history.served nowMs servedRate
    requestMeter, fetchedMeter, servedMeter }

end History

end ProxyMonitor
