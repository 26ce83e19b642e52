import ProxyMonitor.Program
import Std.Time.DateTime

open ProxyMonitor

namespace ProxyMonitor.Program

def variableNames : List String :=
  ["ENDPOINT", "METRICS_PATH", "INFO_PATH", "JSONRPC_VERSION", "POLL_INTERVAL_MS",
    "WINDOW_CAPACITY", "REQUEST_TIMEOUT_MS", "RATE_BASIS", "COUNTER_RESET", "API_METHODS",
    "DESCRIBE_URLS", "GATEWAY", "LOG_FILE", "LOG_FILTER"].map ("IMGPROXY_DOCTOR_" ++ ·) ++
    [logVariable]

def readEnvironment : IO Environment := do
  let values ← variableNames.mapM fun name => do
    return (← IO.getEnv name).map fun value => (name, value)
  return values.filterMap id

def formats : List SettingsFormat := [.toml]

def readContent (path : String) : IO (Except FileFault ByteArray) := do
  try
    return .ok (← IO.FS.readBinFile path)
  catch error =>
    return .error ⟨false, toString error⟩

def pathsToRead (arguments : List String) : List String :=
  match CommandLine.read arguments with
  | .given commandLine =>
    commandLine.file.toList ++ commandLine.reports.toList ++
      commandLine.config.toList.flatMap fun path =>
        path :: (formats.flatMap SettingsFormat.extensions).map (SettingsFile.withExtension path)
  | _ => []

def nowMs : IO Nat := do
  return (← Std.Time.Timestamp.now).toMillisecondsSinceUnixEpoch.val.toNat

def perform (arguments : List String) : Outcome → IO UInt32
  | .help => do
    IO.print CommandLine.helpText
    return 0
  | .wrongArguments => do
    IO.eprintln ("error: invalid arguments: " ++ " ".intercalate arguments)
    return 2
  | .failed => do
    IO.eprintln "Error: Failed to load settings"
    return 1
  | .exported path data => do
    try
      IO.FS.writeFile path data.text
      IO.print (exportedText path)
      return 0
    catch error =>
      IO.eprintln ("Error: " ++ toString error)
      return 1
  | .screen start => do
    if let some log := start.log then
      try
        let handle ← IO.FS.Handle.mk log.path .append
        handle.putStr log.text
      catch error =>
        IO.eprintln ("Failed to open log file " ++ log.path ++ ": " ++ toString error)
    IO.eprintln "Error: no terminal"
    return 1

end ProxyMonitor.Program

def main (arguments : List String) : IO UInt32 := do
  let contents ← (Program.pathsToRead arguments).mapM fun path => do
    return (path, ← Program.readContent path)
  Program.perform arguments (Program.run arguments {
    environment := ← Program.readEnvironment
    files := fun path => (contents.lookup path).getD (.error ⟨false, "not read"⟩)
    formats := Program.formats
    proxy := fun _ _ => .unanswered (.other "there is no network")
    nowMs := ← Program.nowMs })
