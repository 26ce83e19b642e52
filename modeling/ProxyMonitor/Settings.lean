import ProxyMonitor.History
import ProxyMonitor.Settings.File
import ProxyMonitor.Source.Http

/-! Layered settings: command line over environment over settings file over defaults. -/

namespace ProxyMonitor

abbrev Environment := List (String × String)

structure Settings where
  endpoint : String
  metricsPath : String
  infoPath : String
  rpcVersion : String
  pollIntervalMs : Nat
  windowCapacity : Nat
  requestTimeoutMs : Nat
  rateBasis : RateBasis
  counterReset : ResetPolicy
  apiMethods : List String
  describeUrls : List String
  gateway : String
  logFile : Option String
  logFilter : String
  deriving DecidableEq

inductive SettingsError where
  | unreadable
  | blankEndpoint
  | zeroInterval
  | zeroCapacity
  deriving DecidableEq, Repr

namespace SettingsError

def message? : SettingsError → Option String
  | unreadable => none
  | blankEndpoint => some "endpoint must not be empty"
  | zeroInterval => some "poll_interval_ms must be positive"
  | zeroCapacity => some "window_capacity must be positive"

end SettingsError

namespace Settings

def default : Settings where
  endpoint := "http://localhost:8081"
  metricsPath := "/metrics"
  infoPath := "/info"
  rpcVersion := "1.0.0"
  pollIntervalMs := HistoryOptions.default.periodMs
  windowCapacity := HistoryOptions.default.capacity
  requestTimeoutMs := 10000
  rateBasis := HistoryOptions.default.basis
  counterReset := HistoryOptions.default.resetPolicy
  apiMethods := HistoryOptions.default.apiMethods
  describeUrls := ["*"]
  gateway := "https://cloudflare-ipfs.com/ipfs/"
  logFile := none
  logFilter := "info"

def rateBases : List (String × RateBasis) := [("nominal", .nominal), ("measured", .measured)]

def resetPolicies : List (String × ResetPolicy) :=
  [("rebaseline", .rebaseline), ("clamp_to_zero", .clampToZero)]

def environmentMark : String := "imgproxy_doctor_"

def listNames : List String := ["api_methods", "describe_urls"]

/-- The value of a variable: a truth value, an integer, a number, a list for the fields that are
lists, or else a text. -/
def variableValue (name value : String) : SettingValue :=
  let word := String.ofList (value.toList.map Char.toLower)
  if word = "true" then .bool true
  else if word = "false" then .bool false
  else match readInteger? value.toList, Binary64.read? value.toList with
    | some n, _ => .integer n
    | none, some x => .float x
    | none, none =>
      if listNames.contains name then
        .list ((value.toList.splitOn ',').map fun part => .text (String.ofList part))
      else .text value

def variableName? (name : String) : Option String :=
  let name := name.toList.map Char.toLower
  if environmentMark.toList.isPrefixOf name then
    some (String.ofList (name.drop environmentMark.length))
  else none

/-- The settings in the environment; of two names for one setting the last counts. -/
def environmentLayer (environment : Environment) : SettingLayer :=
  environment.reverse.filterMap fun entry =>
    (variableName? entry.1).map fun name => (name, variableValue name entry.2)

/-- The value of a field in the first layer that has it; a value of the wrong type fails. -/
def field? {α : Type} (layers : List SettingLayer) (name : String)
    (read : SettingValue → Option α) (default : α) : Option α :=
  match layers.findSome? fun layer => layer.lookup name with
  | some value => read value
  | none => some default

def ofLayers? (layers : List SettingLayer) : Option Settings := do
  let text (name : String) (value : String) := field? layers name SettingValue.asText? value
  let word (name : String) (value : Nat) := field? layers name SettingValue.asWord? value
  let texts (name : String) (value : List String) :=
    field? layers name SettingValue.asTexts? value
  return {
    endpoint := ← text "endpoint" default.endpoint
    metricsPath := ← text "metrics_path" default.metricsPath
    infoPath := ← text "info_path" default.infoPath
    rpcVersion := ← text "jsonrpc_version" default.rpcVersion
    pollIntervalMs := ← word "poll_interval_ms" default.pollIntervalMs
    windowCapacity := ← word "window_capacity" default.windowCapacity
    requestTimeoutMs := ← word "request_timeout_ms" default.requestTimeoutMs
    rateBasis := ← field? layers "rate_basis" (·.asChoice? rateBases) default.rateBasis
    counterReset := ← field? layers "counter_reset" (·.asChoice? resetPolicies)
      default.counterReset
    apiMethods := ← texts "api_methods" default.apiMethods
    describeUrls := ← texts "describe_urls" default.describeUrls
    gateway := ← text "gateway" default.gateway
    logFile := ← field? layers "log_file" (·.asOptional? SettingValue.asText?) default.logFile
    logFilter := ← text "log_filter" default.logFilter }

def validate (settings : Settings) : Except SettingsError Settings :=
  if settings.endpoint.toList.all Text.isBlank then .error .blankEndpoint
  else if settings.pollIntervalMs = 0 then .error .zeroInterval
  else if settings.windowCapacity = 0 then .error .zeroCapacity
  else .ok settings

def ofSources (file : Option SettingLayer) (environment : Environment) :
    Except SettingsError Settings :=
  match file.bind fun layer => ofLayers? [environmentLayer environment, layer] with
  | some settings => settings.validate
  | none => .error .unreadable

def fileLayer? : (found : Option (Except FileFault String)) → Option SettingLayer
  | none => some []
  | some found => found.toOption.bind Toml.read?

def load (file : Option (Except FileFault String)) (environment : Environment) :
    Except SettingsError Settings :=
  ofSources (fileLayer? file) environment

def httpSource (settings : Settings) : HttpSource :=
  .new settings.endpoint settings.metricsPath settings.infoPath settings.rpcVersion

def historyOptions (settings : Settings) : HistoryOptions :=
  ⟨settings.windowCapacity, settings.pollIntervalMs, settings.rateBasis, settings.counterReset,
    settings.apiMethods⟩

end Settings

end ProxyMonitor
