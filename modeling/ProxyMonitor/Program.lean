import ProxyMonitor.CommandLine
import ProxyMonitor.Export.Gathering
import ProxyMonitor.LogFilter
import ProxyMonitor.Settings
import ProxyMonitor.Source.File

namespace ProxyMonitor

structure LogStart where
  path : String
  text : String
  deriving DecidableEq

structure ScreenStart where
  source : String
  gateway : String
  options : SamplingOptions
  log : Option LogStart

/-- What a program finds around it: environment, files and the formats of settings files, a proxy
that is given some milliseconds to answer, and the time. -/
structure Surroundings where
  environment : Environment
  files : Files
  formats : List SettingsFormat
  proxy : (timeoutMs : Nat) → HttpRequest → Exchange
  nowMs : Nat

inductive Outcome where
  | help
  | wrongArguments
  | failed
  | exported (path : String) (data : Export)
  | screen (start : ScreenStart)

namespace CommandLine

def override (commandLine : CommandLine) (settings : Settings) : Settings :=
  { settings with
    endpoint := commandLine.endpoint.getD settings.endpoint
    pollIntervalMs := commandLine.intervalMs.getD settings.pollIntervalMs
    logFile := commandLine.logFile.or settings.logFile }

end CommandLine

namespace Program

def fileLayer? (around : Surroundings) (config : Option String) : Option SettingLayer :=
  match config with
  | none => some []
  | some path => SettingsFile.read? around.formats around.files path

/-- The settings of all layers, valid before and after the command line is applied. -/
def settings (commandLine : CommandLine) (around : Surroundings) :
    Except SettingsError Settings := do
  let settings ← Settings.ofSources (fileLayer? around commandLine.config) around.environment
  (commandLine.override settings).validate

def proxyData (settings : Settings) (answer : HttpRequest → Exchange) : SourceData :=
  let source := settings.httpSource
  { metrics := HttpSource.metrics (answer source.metricsRequest)
    reports := HttpSource.reports (answer (source.rpcRequest .describeReports none))
    documents := HttpSource.documents
      (answer (source.rpcRequest .describe (some settings.describeUrls)))
    info := HttpSource.info (answer source.infoRequest) }

def source (commandLine : CommandLine) (settings : Settings) (around : Surroundings) :
    String × SourceData :=
  match commandLine.file with
  | some path =>
    let source : FileSource := ⟨path, commandLine.reports⟩
    (source.description, source.fetch around.files.text)
  | none =>
    (settings.httpSource.description, proxyData settings (around.proxy settings.requestTimeoutMs))

def logTarget : String := "imgproxy_doctor::source::sampler"

def logVariable : String := "RUST_LOG"

def logStart (settings : Settings) (description : String) (environment : Environment) :
    Option LogStart :=
  settings.logFile.map fun path =>
    let filter := LogFilter.choose (environment.lookup logVariable) settings.logFilter
    ⟨path, if filter.allows logTarget .info then
      "INFO " ++ logTarget ++ ": Starting sampler for " ++ description ++ " every " ++
        toString settings.pollIntervalMs ++ "ms\n"
    else ""⟩

def samplingOptions (settings : Settings) : SamplingOptions :=
  ⟨settings.historyOptions, settings.describeUrls⟩

def outcome (commandLine : CommandLine) (around : Surroundings) : Outcome :=
  match settings commandLine around with
  | .error _ => .failed
  | .ok settings =>
    let (description, data) := source commandLine settings around
    match commandLine.exportFile with
    | none => .screen {
        source := description
        gateway := settings.gateway
        options := samplingOptions settings
        log := logStart settings description around.environment }
    | some path =>
      match data.export? description (samplingOptions settings) around.nowMs with
      | some exported => .exported path exported
      | none => .failed

def run (arguments : List String) (around : Surroundings) : Outcome :=
  match CommandLine.read arguments with
  | .help => .help
  | .wrong => .wrongArguments
  | .given commandLine => outcome commandLine around

def exportedText (path : String) : String := "Exported proxy state to: " ++ path ++ "\n"

end Program

end ProxyMonitor
