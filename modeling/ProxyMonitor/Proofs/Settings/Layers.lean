import ProxyMonitor.Program

/-! Where each setting of a run comes from, and which settings a run can have. -/

namespace ProxyMonitor

namespace Settings

/-- A variable that sets a field, in any letter case. -/
def Sets (name field : String) : Prop :=
  name.toList.map Char.toLower = environmentMark.toList ++ field.toList

instance (name field : String) : Decidable (Sets name field) :=
  inferInstanceAs (Decidable (_ = _))

def fromEnvironment? (environment : Environment) (field : String) : Option SettingValue :=
  (environment.reverse.find? fun entry => decide (Sets entry.1 field)).map fun entry =>
    variableValue field entry.2

theorem variableName?_eq_some_iff (name field : String) :
    variableName? name = some field ↔ Sets name field := by
  rw [Sets, variableName?]
  constructor
  · intro named
    split at named
    next marked =>
      obtain ⟨rest, split⟩ := List.isPrefixOf_iff_prefix.mp marked
      rw [Option.some.injEq, ← split, ← String.length_toList, List.drop_left] at named
      rw [← split, ← named, String.toList_ofList]
    next => cases named
  · intro lower
    rw [lower, if_pos (List.isPrefixOf_iff_prefix.mpr (List.prefix_append _ _)),
      ← String.length_toList, List.drop_left, String.ofList_toList]

theorem lookup_environmentLayer (environment : Environment) (field : String) :
    (environmentLayer environment).lookup field = fromEnvironment? environment field := by
  rw [environmentLayer, fromEnvironment?]
  induction environment.reverse with
  | nil => rfl
  | cons entry rest ih =>
      by_cases sets : Sets entry.1 field
      · have name := (variableName?_eq_some_iff entry.1 field).mpr sets
        simp [name, sets]
      · rw [List.find?_cons_of_neg (by simpa using sets), ← ih]
        cases name : variableName? entry.1 with
        | none => simp [name]
        | some other =>
            -- The variable sets another field, so search and lookup both pass over it.
            have different : (field == other) = false := by
              rw [beq_eq_false_iff_ne]
              rintro rfl
              exact sets ((variableName?_eq_some_iff entry.1 field).mp name)
            simp [name, List.lookup_cons, different]

/-- Where the value of a field comes from: the first of command line, environment and file that
has one, or else the default. -/
inductive Supplied {α : Type} (read : SettingValue → Option α) (flag : Option α)
    (environment file : Option SettingValue) (default : α) : α → Prop where
  | commandLine {value : α} (given : flag = some value) :
      Supplied read flag environment file default value
  | environment {setting : SettingValue} {value : α} (ungiven : flag = none)
      (set : environment = some setting) (reads : read setting = some value) :
      Supplied read flag environment file default value
  | file {setting : SettingValue} {value : α} (ungiven : flag = none)
      (unset : environment = none) (present : file = some setting)
      (reads : read setting = some value) :
      Supplied read flag environment file default value
  | default (ungiven : flag = none) (unset : environment = none) (absent : file = none) :
      Supplied read flag environment file default default

namespace Supplied

variable {α : Type} {read : SettingValue → Option α} {flag : Option α}
  {environment file : Option SettingValue} {default value : α}

theorem unique {other : α} (supplied : Supplied read flag environment file default value)
    (again : Supplied read flag environment file default other) : value = other := by
  cases supplied <;> cases again <;> simp_all

theorem reads_setting {setting : SettingValue}
    (supplied : Supplied read none environment file default value)
    (set : environment.or file = some setting) : read setting = some value := by
  cases supplied with
  | commandLine given => cases given
  | environment ungiven here reads =>
      rw [here, Option.some_or] at set
      exact Option.some.inj set ▸ reads
  | file ungiven unset present reads =>
      rw [unset, Option.none_or, present] at set
      exact Option.some.inj set ▸ reads
  | default ungiven unset absent =>
      rw [unset, absent] at set
      cases set

theorem eq_of_setting {other : α} (supplied : Supplied read none environment file default value)
    (reads : (environment.or file).bind read = some other) : value = other := by
  obtain ⟨setting, set, readsOther⟩ := Option.bind_eq_some_iff.mp reads
  exact Option.some.inj ((supplied.reads_setting set).symm.trans readsOther)

theorem override (supplied : Supplied read none environment file default value) :
    Supplied read flag environment file default (flag.getD value) := by
  cases flag with
  | some given => exact .commandLine rfl
  | none => exact supplied

end Supplied

abbrev FieldSupplied {α : Type} (environment : Environment) (file : SettingLayer) (name : String)
    (read : SettingValue → Option α) (flag : Option α) (default value : α) : Prop :=
  Supplied read flag (fromEnvironment? environment name) (file.lookup name) default value

theorem field?_eq_some_iff {α : Type} {environment : Environment} {file : SettingLayer}
    {name : String} {read : SettingValue → Option α} {default value : α} :
    field? [environmentLayer environment, file] name read default = some value ↔
      FieldSupplied environment file name read none default value := by
  rw [field?, FieldSupplied, ← lookup_environmentLayer]
  -- Three places to find the field: the environment, the file, or neither.
  cases set : (environmentLayer environment).lookup name with
  | some setting =>
      simp only [List.findSome?_cons, set]
      constructor
      · exact .environment rfl rfl
      · rintro (given | ⟨-, same, reads⟩ | ⟨-, unset, -, -⟩ | ⟨-, unset, -⟩)
        · cases given
        · cases same
          exact reads
        · cases unset
        · cases unset
  | none =>
      cases present : file.lookup name with
      | some setting =>
          simp only [List.findSome?_cons, set, present]
          constructor
          · exact .file rfl rfl rfl
          · rintro (given | ⟨-, same, -⟩ | ⟨-, -, same, reads⟩ | ⟨-, -, absent⟩)
            · cases given
            · cases same
            · cases same
              exact reads
            · cases absent
      | none =>
          simp only [List.findSome?_cons, List.findSome?_nil, set, present, Option.some.injEq]
          constructor
          · rintro rfl
            exact .default rfl rfl rfl
          · rintro (given | ⟨-, same, -⟩ | ⟨-, -, same, -⟩ | -)
            · cases given
            · cases same
            · cases same
            · rfl

open SettingValue in
/-- Every field of some settings comes from the sources by itself. -/
structure Layered (commandLine : CommandLine) (environment : Environment) (file : SettingLayer)
    (settings : Settings) : Prop where
  endpoint : FieldSupplied environment file "endpoint" asText?
    commandLine.endpoint default.endpoint settings.endpoint
  metricsPath : FieldSupplied environment file "metrics_path" asText?
    none default.metricsPath settings.metricsPath
  infoPath : FieldSupplied environment file "info_path" asText?
    none default.infoPath settings.infoPath
  rpcVersion : FieldSupplied environment file "jsonrpc_version" asText?
    none default.rpcVersion settings.rpcVersion
  pollIntervalMs : FieldSupplied environment file "poll_interval_ms" asWord?
    commandLine.intervalMs default.pollIntervalMs settings.pollIntervalMs
  windowCapacity : FieldSupplied environment file "window_capacity" asWord?
    none default.windowCapacity settings.windowCapacity
  requestTimeoutMs : FieldSupplied environment file "request_timeout_ms" asWord?
    none default.requestTimeoutMs settings.requestTimeoutMs
  rateBasis : FieldSupplied environment file "rate_basis" (asChoice? rateBases)
    none default.rateBasis settings.rateBasis
  counterReset : FieldSupplied environment file "counter_reset" (asChoice? resetPolicies)
    none default.counterReset settings.counterReset
  apiMethods : FieldSupplied environment file "api_methods" asTexts?
    none default.apiMethods settings.apiMethods
  describeUrls : FieldSupplied environment file "describe_urls" asTexts?
    none default.describeUrls settings.describeUrls
  gateway : FieldSupplied environment file "gateway" asText?
    none default.gateway settings.gateway
  logFile : FieldSupplied environment file "log_file" (asOptional? asText?)
    (commandLine.logFile.map some) default.logFile settings.logFile
  logFilter : FieldSupplied environment file "log_filter" asText?
    none default.logFilter settings.logFilter

end Settings

namespace CommandLine

def bare : CommandLine := ofGiven []

end CommandLine

namespace Settings

variable {commandLine : CommandLine} {environment : Environment} {file : SettingLayer}
  {settings loaded : Settings}

theorem field?_bind_eq_some_iff {α β : Type} {name : String} {read : SettingValue → Option α}
    {default : α} {rest : α → Option β} {result : β} :
    (field? [environmentLayer environment, file] name read default).bind rest = some result ↔
      ∃ value, FieldSupplied environment file name read none default value ∧
        rest value = some result := by
  simp only [Option.bind_eq_some_iff, field?_eq_some_iff]

theorem ofLayers?_eq_some_iff :
    ofLayers? [environmentLayer environment, file] = some settings ↔
      Layered .bare environment file settings := by
  constructor
  · intro found
    -- One field after the other is read, in the order of the record.
    obtain ⟨_, endpoint, found⟩ := field?_bind_eq_some_iff.mp found
    obtain ⟨_, metricsPath, found⟩ := field?_bind_eq_some_iff.mp found
    obtain ⟨_, infoPath, found⟩ := field?_bind_eq_some_iff.mp found
    obtain ⟨_, rpcVersion, found⟩ := field?_bind_eq_some_iff.mp found
    obtain ⟨_, pollIntervalMs, found⟩ := field?_bind_eq_some_iff.mp found
    obtain ⟨_, windowCapacity, found⟩ := field?_bind_eq_some_iff.mp found
    obtain ⟨_, requestTimeoutMs, found⟩ := field?_bind_eq_some_iff.mp found
    obtain ⟨_, rateBasis, found⟩ := field?_bind_eq_some_iff.mp found
    obtain ⟨_, counterReset, found⟩ := field?_bind_eq_some_iff.mp found
    obtain ⟨_, apiMethods, found⟩ := field?_bind_eq_some_iff.mp found
    obtain ⟨_, describeUrls, found⟩ := field?_bind_eq_some_iff.mp found
    obtain ⟨_, gateway, found⟩ := field?_bind_eq_some_iff.mp found
    obtain ⟨_, logFile, found⟩ := field?_bind_eq_some_iff.mp found
    obtain ⟨_, logFilter, found⟩ := field?_bind_eq_some_iff.mp found
    obtain rfl := Option.some.inj found
    exact ⟨endpoint, metricsPath, infoPath, rpcVersion, pollIntervalMs, windowCapacity,
      requestTimeoutMs, rateBasis, counterReset, apiMethods, describeUrls, gateway, logFile,
      logFilter⟩
  · intro layered
    simp only [ofLayers?, field?_eq_some_iff.mpr layered.endpoint,
      field?_eq_some_iff.mpr layered.metricsPath, field?_eq_some_iff.mpr layered.infoPath,
      field?_eq_some_iff.mpr layered.rpcVersion, field?_eq_some_iff.mpr layered.pollIntervalMs,
      field?_eq_some_iff.mpr layered.windowCapacity,
      field?_eq_some_iff.mpr layered.requestTimeoutMs, field?_eq_some_iff.mpr layered.rateBasis,
      field?_eq_some_iff.mpr layered.counterReset, field?_eq_some_iff.mpr layered.apiMethods,
      field?_eq_some_iff.mpr layered.describeUrls, field?_eq_some_iff.mpr layered.gateway,
      field?_eq_some_iff.mpr layered.logFile, field?_eq_some_iff.mpr layered.logFilter,
      Option.bind_eq_bind, Option.bind_some, Option.pure_def]

namespace Layered

theorem unique {other : Settings} (layered : Layered commandLine environment file settings)
    (again : Layered commandLine environment file other) : settings = other := by
  cases settings
  cases other
  simp only [Settings.mk.injEq]
  exact ⟨layered.endpoint.unique again.endpoint, layered.metricsPath.unique again.metricsPath,
    layered.infoPath.unique again.infoPath, layered.rpcVersion.unique again.rpcVersion,
    layered.pollIntervalMs.unique again.pollIntervalMs,
    layered.windowCapacity.unique again.windowCapacity,
    layered.requestTimeoutMs.unique again.requestTimeoutMs,
    layered.rateBasis.unique again.rateBasis, layered.counterReset.unique again.counterReset,
    layered.apiMethods.unique again.apiMethods, layered.describeUrls.unique again.describeUrls,
    layered.gateway.unique again.gateway, layered.logFile.unique again.logFile,
    layered.logFilter.unique again.logFilter⟩

open SettingValue in
theorem override (layered : Layered .bare environment file loaded) :
    Layered commandLine environment file (commandLine.override loaded) := by
  have laid : (commandLine.logFile.map some).getD loaded.logFile =
      (commandLine.override loaded).logFile := by
    cases given : commandLine.logFile <;> simp [CommandLine.override, given]
  have logFile : FieldSupplied environment file "log_file" (asOptional? asText?)
      (commandLine.logFile.map some) default.logFile (commandLine.override loaded).logFile :=
    laid ▸ layered.logFile.override
  exact ⟨layered.endpoint.override, layered.metricsPath, layered.infoPath, layered.rpcVersion,
    layered.pollIntervalMs.override, layered.windowCapacity, layered.requestTimeoutMs,
    layered.rateBasis, layered.counterReset, layered.apiMethods, layered.describeUrls,
    layered.gateway, logFile, layered.logFilter⟩

end Layered

structure Runnable (settings : Settings) : Prop where
  endpoint : ∃ c ∈ settings.endpoint.toList, Text.isBlank c = false
  pollIntervalMs : 0 < settings.pollIntervalMs
  windowCapacity : 0 < settings.windowCapacity

theorem validate_eq_ok_iff {valid : Settings} :
    settings.validate = .ok valid ↔ settings = valid ∧ settings.Runnable := by
  have solid : ¬ settings.endpoint.toList.all Text.isBlank = true ↔
      ∃ c ∈ settings.endpoint.toList, Text.isBlank c = false := by
    simp
  rw [validate]
  constructor
  · intro accepted
    split at accepted
    next => cases accepted
    next endpoint =>
      split at accepted
      next => cases accepted
      next interval =>
        split at accepted
        next => cases accepted
        next capacity =>
          cases accepted
          exact ⟨rfl, solid.mp endpoint, Nat.pos_of_ne_zero interval,
            Nat.pos_of_ne_zero capacity⟩
  · rintro ⟨rfl, runnable⟩
    rw [if_neg (solid.mpr runnable.endpoint), if_neg (Nat.ne_of_gt runnable.pollIntervalMs),
      if_neg (Nat.ne_of_gt runnable.windowCapacity)]

theorem ok_of_toOption {result : Except SettingsError Settings}
    (found : result.toOption = some settings) : result = .ok settings := by
  cases result with
  | error problem => cases found
  | ok other => exact congrArg _ (Option.some.inj found)

theorem ofSources_eq_ok_iff {found : Option SettingLayer} :
    ofSources found environment = .ok settings ↔
      ∃ file, found = some file ∧ Layered .bare environment file settings ∧ settings.Runnable := by
  rw [ofSources]
  constructor
  · intro accepted
    cases layers : found.bind fun file => ofLayers? [environmentLayer environment, file] with
    | none =>
        rw [layers] at accepted
        cases accepted
    | some loaded =>
        rw [layers] at accepted
        obtain ⟨file, present, layered⟩ := Option.bind_eq_some_iff.mp layers
        obtain ⟨rfl, runnable⟩ := validate_eq_ok_iff.mp accepted
        exact ⟨file, present, ofLayers?_eq_some_iff.mp layered, runnable⟩
  · rintro ⟨file, rfl, layered, runnable⟩
    rw [Option.bind_some, ofLayers?_eq_some_iff.mpr layered]
    exact validate_eq_ok_iff.mpr ⟨rfl, runnable⟩

theorem load_eq_ok_iff {found : Option (Except FileFault String)} :
    load found environment = .ok settings ↔
      ∃ file, fileLayer? found = some file ∧ Layered .bare environment file settings ∧
        settings.Runnable :=
  ofSources_eq_ok_iff

end Settings

namespace Program

variable {commandLine : CommandLine} {around : Surroundings} {settings : Settings}

/-- The settings that a sampler is started with: those of the sources, which can be run with
before and after the command line has its say. -/
structure StartsWith (commandLine : CommandLine) (around : Surroundings) (settings : Settings) :
    Prop where
  layered : ∃ file loaded, fileLayer? around commandLine.config = some file ∧
    Settings.Layered commandLine around.environment file settings ∧
    Settings.Layered .bare around.environment file loaded ∧ loaded.Runnable
  runnable : settings.Runnable

theorem settings_eq_ok_iff :
    Program.settings commandLine around = .ok settings ↔
      StartsWith commandLine around settings := by
  have bound : Program.settings commandLine around =
      (Settings.ofSources (fileLayer? around commandLine.config) around.environment).bind
        fun loaded => (commandLine.override loaded).validate := rfl
  rw [bound]
  constructor
  · intro reached
    cases load : Settings.ofSources (fileLayer? around commandLine.config) around.environment with
    | error problem =>
        rw [load] at reached
        cases reached
    | ok loaded =>
        rw [load] at reached
        obtain ⟨file, present, layered, loadable⟩ := Settings.ofSources_eq_ok_iff.mp load
        obtain ⟨rfl, runnable⟩ := Settings.validate_eq_ok_iff.mp reached
        exact ⟨⟨file, loaded, present, layered.override, layered, loadable⟩, runnable⟩
  · rintro ⟨⟨file, loaded, present, layered, below, loadable⟩, runnable⟩
    rw [Settings.ofSources_eq_ok_iff.mpr ⟨file, present, below, loadable⟩]
    exact Settings.validate_eq_ok_iff.mpr ⟨below.override.unique layered, by
      rwa [below.override.unique layered]⟩

namespace StartsWith

theorem unique {other : Settings} (starts : StartsWith commandLine around settings)
    (again : StartsWith commandLine around other) : settings = other := by
  have same := (settings_eq_ok_iff.mpr starts).symm.trans (settings_eq_ok_iff.mpr again)
  exact Except.ok.inj same

theorem interval_ne_zero (starts : StartsWith commandLine around settings) :
    commandLine.intervalMs ≠ some 0 := by
  intro zero
  obtain ⟨file, -, -, layered, -⟩ := starts.layered
  have interval := layered.pollIntervalMs.unique (.commandLine zero)
  exact absurd interval (Nat.ne_of_gt starts.runnable.pollIntervalMs)

theorem setting_ne_zero (starts : StartsWith commandLine around settings)
    {file : SettingLayer} (present : fileLayer? around commandLine.config = some file)
    {name : String} (positive : name = "poll_interval_ms" ∨ name = "window_capacity") :
    ((Settings.fromEnvironment? around.environment name).or (file.lookup name)).bind
      SettingValue.asWord? ≠ some 0 := by
  intro zero
  obtain ⟨other, loaded, found, -, layered, runnable⟩ := starts.layered
  obtain rfl : other = file := Option.some.inj (found.symm.trans present)
  rcases positive with rfl | rfl
  · have interval := layered.pollIntervalMs.eq_of_setting zero
    exact absurd interval (Nat.ne_of_gt runnable.pollIntervalMs)
  · have capacity := layered.windowCapacity.eq_of_setting zero
    exact absurd capacity (Nat.ne_of_gt runnable.windowCapacity)

end StartsWith

/-- What a run does once it has its settings: it samples the source and writes the export, or it
opens the screen. -/
def launch (commandLine : CommandLine) (settings : Settings) (around : Surroundings) : Outcome :=
  let (description, data) := source commandLine settings around
  match commandLine.exportFile with
  | none => .screen {
      source := description
      gateway := settings.gateway
      options := samplingOptions settings
      log := logStart settings description around.environment }
  | some path =>
    match data.export? description (samplingOptions settings) around.nowMs with
    | some exported => .exported path exported
    | none => .failed

theorem outcome_eq (commandLine : CommandLine) (around : Surroundings) :
    outcome commandLine around = match Program.settings commandLine around with
      | .error _ => .failed
      | .ok settings => launch commandLine settings around := by
  rw [outcome]
  cases Program.settings commandLine around with
  | error problem => rfl
  | ok settings => rfl

theorem outcome_of_no_settings (none : ∀ settings, ¬ StartsWith commandLine around settings) :
    outcome commandLine around = .failed := by
  rw [outcome_eq]
  cases reached : Program.settings commandLine around with
  | error problem => rfl
  | ok settings => exact absurd (settings_eq_ok_iff.mp reached) (none settings)

/-- Runs of all arguments in all surroundings. -/
structure SettingsLayered (arguments : List String) (around : Surroundings) : Prop where
  settled : ∀ commandLine settings,
    Program.settings commandLine around = .ok settings ↔ StartsWith commandLine around settings
  unique : ∀ commandLine settings other, StartsWith commandLine around settings →
    StartsWith commandLine around other → settings = other
  starts : ∀ commandLine settings, CommandLine.read arguments = .given commandLine →
    StartsWith commandLine around settings →
      run arguments around = launch commandLine settings around
  fails : ∀ commandLine, CommandLine.read arguments = .given commandLine →
    (∀ settings, ¬ StartsWith commandLine around settings) → run arguments around = .failed
  refuses : (∀ commandLine, CommandLine.read arguments ≠ .given commandLine) →
    run arguments around = .help ∨ run arguments around = .wrongArguments
  zeroFlag : ∀ commandLine, CommandLine.read arguments = .given commandLine →
    commandLine.intervalMs = some 0 → run arguments around = .failed
  /-- A zero in force in the environment or the file is refused even if the command line would
  cover it. -/
  zeroSetting : ∀ commandLine file name, CommandLine.read arguments = .given commandLine →
    fileLayer? around commandLine.config = some file →
      name = "poll_interval_ms" ∨ name = "window_capacity" →
        ((Settings.fromEnvironment? around.environment name).or (file.lookup name)).bind
            SettingValue.asWord? = some 0 →
          run arguments around = .failed

theorem settings_layered (arguments : List String) (around : Surroundings) :
    SettingsLayered arguments around := by
  have given : ∀ commandLine, CommandLine.read arguments = .given commandLine →
      run arguments around = outcome commandLine around := by
    intro commandLine read
    rw [run, read]
  have fails : ∀ commandLine, CommandLine.read arguments = .given commandLine →
      (∀ settings, ¬ StartsWith commandLine around settings) → run arguments around = .failed := by
    intro commandLine read none
    rw [given commandLine read, outcome_of_no_settings none]
  refine ⟨fun _ _ => settings_eq_ok_iff, fun _ _ _ => StartsWith.unique, ?starts, fails, ?refuses,
    ?zeroFlag, ?zeroSetting⟩
  case starts =>
    intro commandLine settings read starts
    rw [given commandLine read, outcome_eq, settings_eq_ok_iff.mpr starts]
  case refuses =>
    intro refused
    rw [run]
    cases read : CommandLine.read arguments with
    | help => exact .inl rfl
    | wrong => exact .inr rfl
    | given commandLine => exact absurd read (refused commandLine)
  case zeroFlag =>
    intro commandLine read zero
    exact fails commandLine read fun settings starts => starts.interval_ne_zero zero
  case zeroSetting =>
    intro commandLine file name read present positive zero
    exact fails commandLine read fun settings starts =>
      starts.setting_ne_zero present positive zero

def filedText : String :=
  "endpoint = 'http://file'\npoll_interval_ms = 2000\napi_methods = ['a', 'b']\ngateway = 'f/'"

def fileAlone (environment : Environment) : Surroundings where
  environment := environment
  files path :=
    if path = "s.toml" then .ok filedText.toUTF8
    else .error ⟨false, "No such file or directory (os error 2)"⟩
  formats := [⟨["json"], fun _ => none⟩, .toml]
  proxy := fun _ _ => .unanswered .timeout
  nowMs := 0

theorem fileLayer?_fileAlone (environment : Environment) :
    fileLayer? (fileAlone environment) (some "s") = Toml.read? filedText := by
  have found : SettingsFile.find? (fileAlone environment).formats (fileAlone environment).files
      "s" = some ("s.toml", .toml) := by
    have named : SettingsFile.hasName "s" = true := by decide
    have json : SettingsFile.withExtension "s" "json" = "s.json" := by decide
    have toml : SettingsFile.withExtension "s" "toml" = "s.toml" := by decide
    simp [SettingsFile.find?, fileAlone, Files.isFile, SettingsFormat.toml, named, json, toml]
  have text : (fileAlone environment).files.lossyText "s.toml" = .ok filedText := by
    simp [fileAlone, Files.lossyText, Except.map]
  simp only [fileLayer?, SettingsFile.read?, found, text, Option.bind_eq_bind, Option.bind_some,
    Except.toOption, SettingsFormat.toml]

theorem settings_layered_of_all_sources :
    let arguments := ["--config", "s", "-i", "700"]
    let commandLine : CommandLine := ⟨none, none, none, some 700, some "s", none, none⟩
    let environment := [("IMGPROXY_DOCTOR_API_METHODS", "c"),
      ("imgproxy_doctor_api_methods", "d,e"), ("IMGPROXY_DOCTOR_POLL_INTERVAL_MS", "900")]
    let settings := { Settings.default with
      endpoint := "http://file", pollIntervalMs := 700, apiMethods := ["d", "e"], gateway := "f/" }
    let zero := [("IMGPROXY_DOCTOR_WINDOW_CAPACITY", "0")]
    CommandLine.read arguments = .given commandLine ∧
      Program.settings commandLine (fileAlone environment) = .ok settings ∧
      run arguments (fileAlone environment) =
        launch commandLine settings (fileAlone environment) ∧
      run ["-i", "0"] (fileAlone environment) = .failed ∧
      run arguments (fileAlone zero) = .failed := by
  intro arguments commandLine environment settings zero
  have read : CommandLine.read arguments = .given commandLine := by decide +kernel
  have settled : Program.settings commandLine (fileAlone environment) = .ok settings := by
    rw [Program.settings, fileLayer?_fileAlone]
    exact Settings.ok_of_toOption (by decide +kernel)
  have layered := settings_layered arguments (fileAlone environment)
  refine ⟨read, settled, layered.starts _ _ read ((layered.settled _ _).mp settled), ?_, ?_⟩
  · exact (settings_layered ["-i", "0"] (fileAlone environment)).zeroFlag
      ⟨none, none, none, some 0, none, none, none⟩ (by decide +kernel) rfl
  · obtain ⟨file, present⟩ : ∃ file, fileLayer? (fileAlone zero) commandLine.config = some file :=
      Option.isSome_iff_exists.mp (by rw [fileLayer?_fileAlone]; decide +kernel)
    refine (settings_layered arguments (fileAlone zero)).zeroSetting _ file "window_capacity" read
      present (.inr rfl) ?_
    have set : Settings.fromEnvironment? zero "window_capacity" = some (.integer 0) := by
      rfl
    rw [show (fileAlone zero).environment = zero from rfl, set]
    rfl

end Program

end ProxyMonitor
