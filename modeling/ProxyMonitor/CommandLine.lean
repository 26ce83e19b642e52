import ProxyMonitor.Decimal.Reading
import ProxyMonitor.Text

namespace ProxyMonitor

inductive Flag where
  | endpoint
  | file
  | reports
  | interval
  | config
  | logFile
  | exportFile
  deriving DecidableEq, Repr

namespace Flag

def all : List Flag := [endpoint, file, reports, interval, config, logFile, exportFile]

def name : Flag → String
  | endpoint => "endpoint"
  | file => "file"
  | reports => "reports"
  | interval => "interval"
  | config => "config"
  | logFile => "log-file"
  | exportFile => "export"

def letter? : Flag → Option Char
  | endpoint => some 'u'
  | file => some 'f'
  | interval => some 'i'
  | config => some 'c'
  | exportFile => some 'e'
  | reports | logFile => none

def ofName? (name : List Char) : Option Flag := all.find? fun flag => flag.name.toList == name

def ofLetter? (c : Char) : Option Flag := all.find? fun flag => flag.letter? == some c

/-- An interval is a whole number of 64 bits, the endpoint any text, and paths are not empty. -/
def accepts (flag : Flag) (value : List Char) : Bool :=
  match flag with
  | endpoint => true
  | interval => (readWord? value).isSome
  | _ => !value.isEmpty

end Flag

structure CommandLine where
  endpoint : Option String
  file : Option String
  reports : Option String
  intervalMs : Option Nat
  config : Option String
  logFile : Option String
  exportFile : Option String
  deriving DecidableEq

inductive Arguments where
  | help
  | wrong
  | given (commandLine : CommandLine)
  deriving DecidableEq

namespace CommandLine

inductive Token where
  | help
  | endOfOptions
  | option (flag : Flag)
  | optionWith (flag : Flag) (value : List Char)
  | other
  deriving DecidableEq

def longToken (text : List Char) : Token :=
  let (name, value) := (Text.splitAt? '=' text).elim (text, none) fun (name, value) =>
    (name, some value)
  if name = "help".toList then
    if value.isNone then .help else .other
  else match Flag.ofName? name, value with
    | some flag, some value => .optionWith flag value
    | some flag, none => .option flag
    | none, _ => .other

def shortToken (letter : Char) (rest : List Char) : Token :=
  if letter = 'h' then .help
  else match Flag.ofLetter? letter, rest with
    | none, _ => .other
    | some flag, [] => .option flag
    | some flag, '=' :: value => .optionWith flag value
    | some flag, value => .optionWith flag value

def token (argument : List Char) : Token :=
  match argument with
  | ['-', '-'] => .endOfOptions
  | '-' :: '-' :: text => longToken text
  | '-' :: letter :: rest => shortToken letter rest
  | _ => .other

/-- A value does not look like an option; a dash alone does not. -/
def isValue (argument : List Char) : Bool :=
  match argument with
  | ['-'] => true
  | '-' :: _ => false
  | _ => true

abbrev Given := List (Flag × List Char)

def add? (given : Given) (flag : Flag) (value : List Char) : Option Given :=
  if (given.lookup flag).isNone && flag.accepts value then some ((flag, value) :: given) else none

def ofGiven (given : Given) : CommandLine :=
  let text (flag : Flag) := (given.lookup flag).map String.ofList
  { endpoint := text .endpoint
    file := text .file
    reports := text .reports
    intervalMs := (given.lookup .interval).bind readWord?
    config := text .config
    logFile := text .logFile
    exportFile := text .exportFile }

/-- A file takes the place of an endpoint, and reports come with a file. -/
def isConsistent (commandLine : CommandLine) : Bool :=
  !(commandLine.endpoint.isSome && commandLine.file.isSome) &&
    !(commandLine.reports.isSome && commandLine.file.isNone)

def finish (given : Given) : Arguments :=
  let commandLine := ofGiven given
  if commandLine.isConsistent then .given commandLine else .wrong

/-- Takes the arguments in turn; the first that is wrong or asks for help decides. -/
def readFrom (given : Given) : List (List Char) → Arguments
  | [] => finish given
  | argument :: rest =>
    match token argument, rest with
    | .help, _ => .help
    | .endOfOptions, [] => finish given
    | .optionWith flag value, rest =>
      match add? given flag value with
      | some given => readFrom given rest
      | none => .wrong
    | .option flag, value :: rest =>
      if isValue value then
        match add? given flag value with
        | some given => readFrom given rest
        | none => .wrong
      else .wrong
    | _, _ => .wrong

def read (arguments : List String) : Arguments := readFrom [] (arguments.map String.toList)

def helpText : String :=
  "Diagnostic TUI for an image proxy's metrics and moderation reports\n\n" ++
  "Usage: imgproxy-doctor [OPTIONS]\n\n" ++
  "Options:\n" ++
  "  -u, --endpoint <ENDPOINT>  Proxy endpoint (e.g., \"http://localhost:8081\")\n" ++
  "  -f, --file <FILE>          Read a saved metrics scrape instead of polling a proxy\n" ++
  "      --reports <REPORTS>    Saved report listing (only used with --file)\n" ++
  "  -i, --interval <INTERVAL>  Poll interval in milliseconds\n" ++
  "  -c, --config <CONFIG>      Settings file (TOML)\n" ++
  "      --log-file <LOG_FILE>  Write logs to this file\n" ++
  "  -e, --export <EXPORT>      Export current state to JSON file and exit\n" ++
  "  -h, --help                 Print help\n"

end CommandLine

end ProxyMonitor
