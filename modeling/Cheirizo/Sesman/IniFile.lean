import Cheirizo.Lib.Case
import Cheirizo.Lib.Path
import Cheirizo.Sesman.IniList
import Cheirizo.Sesman.State

/-!
# Session configuration files

`src/sesman/state.rs`: a configuration file of the session manager is rendered section by section
and read line by line. What is read is filled in over the defaults; the sections of a component and
of its environment are put together in a map sorted by name, and if there are any, its values in
their order replace the default components.

## Main definitions

* `SesmanConfig`, `SesmanConfig.default` — a configuration, and what an absent part is filled with
* `parseSesmanIni` — reading, with the lines of its errors
* `renderSesmanIni` — writing
-/

namespace Cheirizo

namespace Sesman

namespace Ini

/-! ### Configurations -/

/-- Rust's ordered map with string keys. The order is that of the characters. -/
abbrev BTreeMap (V : Type) := Std.ExtTreeMap (List Char) V

/-- Readiness signal for a component. -/
inductive ReadinessCheck where
  | processAlive
  | unixSocket (path : List Char)
  | none

/-- A managed process. -/
structure ComponentConfig where
  name : List Char
  command : List Char
  args : List (List Char)
  env : BTreeMap (List Char)
  workingDir : Option (List Char)
  logPath : Option (List Char)
  readiness : ReadinessCheck
  required : Bool
  startupDelayMs : UInt64

/-- The configuration of the session manager, with every field of the source. -/
structure SesmanConfig where
  sessionName : List Char
  user : List Char
  xdgRuntimeDir : List Char
  stateDir : List Char
  logDir : List Char
  defaultSize : SessionSize
  startTimeoutMs : UInt64
  stopTimeoutMs : UInt64
  idleTimeoutMs : UInt64
  environment : BTreeMap (List Char)
  cleanupPaths : List (List Char)
  cleanupGlobs : List (List Char)
  components : List ComponentConfig

/-! ### Defaults -/

/-- What the defaults ask the host for. -/
structure HostEnv where
  effectiveUid : ℕ
  /-- The name of the effective user, if it has one. -/
  effectiveUser : Option (List Char)
  /-- `XDG_RUNTIME_DIR` -/
  xdgRuntimeDir : Option (List Char)
  /-- `WRDP_WLR_RENDERER` -/
  wlrRenderer : Option (List Char)
  /-- `WRDP_RENDER_DRM_DEVICE` -/
  renderDrmDevice : Option (List Char)

/-- The runtime directory of the environment, or the usual one of the user. -/
def defaultXdgRuntimeDir (host : HostEnv) : List Char :=
  host.xdgRuntimeDir.getD
    ("/run/user/".toList ++ Text.padded 0 host.effectiveUid ++ "/wrdp".toList)

/-- The default environment, in the order of the source. -/
def defaultVariables (host : HostEnv) : List (List Char × List Char) :=
  [("XDG_CURRENT_DESKTOP".toList, "wrdp-compositor".toList),
    ("XDG_SESSION_DESKTOP".toList, "wrdp-compositor".toList),
    ("WLR_BACKENDS".toList, "headless".toList),
    ("WLR_LIBINPUT_NO_DEVICES".toList, "1".toList),
    ("WLR_RENDERER".toList, host.wlrRenderer.getD "gles2".toList),
    ("WLR_RENDER_DRM_DEVICE".toList, host.renderDrmDevice.getD "/dev/dri/renderD128".toList),
    ("WLR_NO_HARDWARE_CURSORS".toList, "1".toList),
    ("LIBVA_DRIVER_NAME".toList, "iHD".toList),
    ("RUST_BACKTRACE".toList, "1".toList),
    ("PATH".toList, "/usr/local/bin:/usr/bin:/bin".toList)]

/-- The variables every component is started with. -/
def defaultEnvironment (host : HostEnv) : BTreeMap (List Char) :=
  Std.ExtTreeMap.ofList (defaultVariables host)

/-- The compositor alone. -/
def defaultComponents (host : HostEnv) : List ComponentConfig :=
  [{ name := "wrdp-compositor".toList
     command := "/usr/lib/wrdp/wrdp-compositor".toList
     args := ["--config-dir".toList, "/etc/wrdp/labwc".toList]
     env := ∅
     workingDir := none
     logPath := none
     readiness := .unixSocket (Path.join (defaultXdgRuntimeDir host) "wayland-0".toList)
     required := true
     startupDelayMs := 250 }]

/-- What holds where a file says nothing. -/
def SesmanConfig.default (host : HostEnv) : SesmanConfig where
  sessionName := "default".toList
  user := host.effectiveUser.getD []
  xdgRuntimeDir := defaultXdgRuntimeDir host
  stateDir := Path.join (defaultXdgRuntimeDir host) "sesman".toList
  logDir := Path.join (defaultXdgRuntimeDir host) "logs".toList
  defaultSize := ⟨1920, 1080⟩
  startTimeoutMs := 15000
  stopTimeoutMs := 10000
  idleTimeoutMs := 30 * 60 * 1000
  environment := defaultEnvironment host
  cleanupPaths := [Path.join (defaultXdgRuntimeDir host) "wayland-0".toList,
    Path.join (defaultXdgRuntimeDir host) "wayland-0.lock".toList]
  cleanupGlobs := []
  components := defaultComponents host

/-- The component a section starts from. -/
def emptyComponent (name : List Char) : ComponentConfig where
  name := name
  command := []
  args := []
  env := ∅
  workingDir := none
  logPath := none
  readiness := .processAlive
  required := true
  startupDelayMs := 0

/-! ### Values -/

/-- Why a text is not a number below the bound. A number too large is noticed before a character
after it. -/
def intError (bound : ℕ) (value : List Char) : String :=
  let digits := match value with
    | '+' :: rest => rest
    | _ => value
  let leading := (digits.takeWhile Char.isDigit).foldl
    (fun n c => 10 * n + (c.toNat - '0'.toNat)) 0
  if value = [] then "cannot parse integer from empty string"
  else if bound ≤ leading then "number too large to fit in target type"
  else "invalid digit found in string"

/-- The error of a value that does not parse. -/
def invalidValue (key : List Char) (lineNumber : ℕ) (reason : String) : String :=
  "invalid value for '" ++ String.ofList key ++ "' at line " ++ toString lineNumber ++ ": " ++
    reason

/-- An unsigned number below a bound. -/
def parseIniNumber (bound : ℕ) (value : List Char) (lineNumber : ℕ) (key : List Char) :
    Except String ℕ :=
  match Text.parseUnsigned bound value with
  | some n => .ok n
  | none => .error (invalidValue key lineNumber (intError bound value))

/-- `str::parse::<u64>`. -/
def parseIniU64 (value : List Char) (lineNumber : ℕ) (key : List Char) : Except String UInt64 :=
  (parseIniNumber (2 ^ 64) value lineNumber key).map UInt64.ofNat

/-- `str::parse::<u32>`. -/
def parseIniU32 (value : List Char) (lineNumber : ℕ) (key : List Char) : Except String UInt32 :=
  (parseIniNumber (2 ^ 32) value lineNumber key).map UInt32.ofNat

/-- Rust reads exactly two spellings of a truth value. -/
def parseIniBool (value : List Char) (lineNumber : ℕ) (key : List Char) : Except String Bool :=
  if value = "true".toList then .ok true
  else if value = "false".toList then .ok false
  else .error (invalidValue key lineNumber "provided string was not `true` or `false`")

/-- A path of blanks is none. -/
def nonemptyPath (value : List Char) : Option (List Char) :=
  if Text.trim value = [] then none else some value

/-! ### Reading -/

/-- The error of a key that its section does not have. -/
def unknownKey (kind : String) (key : List Char) (lineNumber : ℕ) : String :=
  "unknown " ++ kind ++ " key '" ++ String.ofList key ++ "' at line " ++ toString lineNumber

/-- The keys of the section `[globals]`. -/
def applySesmanGlobal (config : SesmanConfig) (key value : List Char) (lineNumber : ℕ) :
    Except String SesmanConfig :=
  if key = "session_name".toList then .ok { config with sessionName := value }
  else if key = "user".toList then .ok { config with user := value }
  else if key = "xdg_runtime_dir".toList then .ok { config with xdgRuntimeDir := value }
  else if key = "state_dir".toList then .ok { config with stateDir := value }
  else if key = "log_dir".toList then .ok { config with logDir := value }
  else if key = "start_timeout_ms".toList then
    (parseIniU64 value lineNumber key).map fun n => { config with startTimeoutMs := n }
  else if key = "stop_timeout_ms".toList then
    (parseIniU64 value lineNumber key).map fun n => { config with stopTimeoutMs := n }
  else if key = "idle_timeout_ms".toList then
    (parseIniU64 value lineNumber key).map fun n => { config with idleTimeoutMs := n }
  else .error (unknownKey "globals" key lineNumber)

/-- The keys of the section `[default_size]`. -/
def applyDefaultSize (size : SessionSize) (key value : List Char) (lineNumber : ℕ) :
    Except String SessionSize :=
  if key = "width".toList then
    (parseIniU32 value lineNumber key).map fun n => { size with width := n }
  else if key = "height".toList then
    (parseIniU32 value lineNumber key).map fun n => { size with height := n }
  else .error (unknownKey "default_size" key lineNumber)

/-- The keys of the section `[cleanup]`. -/
def applyCleanup (config : SesmanConfig) (key value : List Char) (lineNumber : ℕ) :
    Except String SesmanConfig :=
  if key = "paths".toList then .ok { config with cleanupPaths := parseIniList value }
  else if key = "globs".toList then .ok { config with cleanupGlobs := parseIniList value }
  else .error (unknownKey "cleanup" key lineNumber)

/-- The path of a socket comes with a key of its own. -/
def parseReadiness (value : List Char) (lineNumber : ℕ) : Except String ReadinessCheck :=
  if value = "process_alive".toList then .ok .processAlive
  else if value = "none".toList then .ok .none
  else if value = "unix_socket".toList then .ok (.unixSocket [])
  else .error ("invalid readiness '" ++ String.ofList value ++ "' at line " ++ toString lineNumber)

/-- The keys of a section `[component:…]`. -/
def applyComponentKey (component : ComponentConfig) (key value : List Char) (lineNumber : ℕ) :
    Except String ComponentConfig :=
  if key = "command".toList then .ok { component with command := value }
  else if key = "args".toList then .ok { component with args := parseIniList value }
  else if key = "working_dir".toList then .ok { component with workingDir := nonemptyPath value }
  else if key = "log_path".toList then .ok { component with logPath := nonemptyPath value }
  else if key = "readiness".toList then
    (parseReadiness value lineNumber).map fun check => { component with readiness := check }
  else if key = "readiness_path".toList then
    .ok { component with readiness := .unixSocket value }
  else if key = "required".toList then
    (parseIniBool value lineNumber key).map fun b => { component with required := b }
  else if key = "startup_delay_ms".toList then
    (parseIniU64 value lineNumber key).map fun n => { component with startupDelayMs := n }
  else .error (unknownKey "component" key lineNumber)

/-- What has been read so far. -/
structure IniState where
  config : SesmanConfig
  sectionName : List Char
  components : BTreeMap ComponentConfig

/-- The component of a section, made if it is not there yet. -/
def IniState.entry (state : IniState) (name : List Char) : ComponentConfig :=
  state.components[name]?.getD (emptyComponent name)

/-- A component is replaced under its name. -/
def IniState.setEntry (state : IniState) (name : List Char) (component : ComponentConfig) :
    IniState :=
  { state with components := state.components.insert name component }

section Reading

variable (t : Case.Tables)

/-- Read a key, in lower case, and its value. -/
def applyEntry (state : IniState) (key value : List Char) (lineNumber : ℕ) :
    Except String IniState :=
  if state.sectionName = "globals".toList then
    (applySesmanGlobal state.config key value lineNumber).map fun config =>
      { state with config := config }
  else if state.sectionName = "default_size".toList then
    (applyDefaultSize state.config.defaultSize key value lineNumber).map fun size =>
      { state with config := { state.config with defaultSize := size } }
  else if state.sectionName = "environment".toList then
    .ok { state with config := { state.config with
      environment := state.config.environment.insert (t.toUppercase key) value } }
  else if state.sectionName = "cleanup".toList then
    (applyCleanup state.config key value lineNumber).map fun config =>
      { state with config := config }
  else if "component:".toList.isPrefixOf state.sectionName then
    let name := Text.trimStartMatches "component:".toList state.sectionName
    (applyComponentKey (state.entry name) key value lineNumber).map (state.setEntry name)
  else if "component_env:".toList.isPrefixOf state.sectionName then
    let name := Text.trimStartMatches "component_env:".toList state.sectionName
    let component := state.entry name
    .ok (state.setEntry name
      { component with env := component.env.insert (t.toUppercase key) value })
  else
    .error ("unknown sesman config section '[" ++ String.ofList state.sectionName ++
      "]' at line " ++ toString lineNumber)

/-- Names of sections and keys are read in lower case. -/
def parseLine (lineNumber : ℕ) (state : IniState) (rawLine : List Char) : Except String IniState :=
  match parseIniLine rawLine with
  | .blank => .ok state
  | .section name => .ok { state with sectionName := t.toLowercase name }
  | .entry key value => applyEntry t state (t.toLowercase key) value lineNumber
  | .invalid =>
    .error ("invalid sesman config line " ++ toString lineNumber ++ ": expected key=value")

/-- Read lines, the first of which has the given number. -/
def parseLines : ℕ → IniState → List (List Char) → Except String IniState
  | _, state, [] => .ok state
  | lineNumber, state, rawLine :: rest =>
    match parseLine t lineNumber state rawLine with
    | .ok state => parseLines (lineNumber + 1) state rest
    | .error e => .error e

/-- The components that were read replace the default ones, if there are any. -/
def IniState.finish (state : IniState) : SesmanConfig :=
  if state.components.isEmpty then state.config
  else { state.config with components := state.components.toList.map Prod.snd }

/-- Entries before the first section belong to `[globals]`. -/
def IniState.initial (host : HostEnv) : IniState where
  config := .default host
  sectionName := "globals".toList
  components := ∅

/-- `SesmanConfig::from_ini`: the first bad line is the error. -/
def parseSesmanIni (host : HostEnv) (content : List Char) : Except String SesmanConfig :=
  (parseLines t 1 (.initial host) (Text.lines content)).map IniState.finish

end Reading

/-! ### Writing -/

/-- The line that opens a section. -/
def headerLine (name : List Char) : List Char := '[' :: (name ++ [']'])

/-- A line with a key of the program's own. -/
def keyLine (key : String) (value : List Char) : List Char := iniLine key.toList value

/-- A map of variables, in the order of its keys. -/
def variableLines (env : BTreeMap (List Char)) : List (List Char) :=
  env.toList.map fun entry => iniLine entry.1 (formatIniScalar entry.2)

/-- A socket takes two lines. -/
def readinessLines : ReadinessCheck → List (List Char)
  | .processAlive => [keyLine "readiness" "process_alive".toList]
  | .none => [keyLine "readiness" "none".toList]
  | .unixSocket path =>
    [keyLine "readiness" "unix_socket".toList, keyLine "readiness_path" path]

/-- A component, with the section of its own variables behind it. -/
def componentLines (component : ComponentConfig) : List (List Char) :=
  [headerLine ("component:".toList ++ component.name), keyLine "command" component.command,
    keyLine "args" (formatIniList component.args)] ++
  (component.workingDir.toList.map (keyLine "working_dir")) ++
  (component.logPath.toList.map (keyLine "log_path")) ++
  readinessLines component.readiness ++
  [keyLine "required" (if component.required then "true".toList else "false".toList),
    keyLine "startup_delay_ms" (Text.padded 0 component.startupDelayMs.toNat), []] ++
  if component.env.isEmpty then []
  else headerLine ("component_env:".toList ++ component.name) ::
    (variableLines component.env ++ [[]])

/-- The section `[globals]`. -/
def globalLines (config : SesmanConfig) : List (List Char) :=
  [headerLine "globals".toList, keyLine "session_name" config.sessionName,
    keyLine "user" config.user, keyLine "xdg_runtime_dir" config.xdgRuntimeDir,
    keyLine "state_dir" config.stateDir, keyLine "log_dir" config.logDir,
    keyLine "start_timeout_ms" (Text.padded 0 config.startTimeoutMs.toNat),
    keyLine "stop_timeout_ms" (Text.padded 0 config.stopTimeoutMs.toNat),
    keyLine "idle_timeout_ms" (Text.padded 0 config.idleTimeoutMs.toNat), []]

/-- The section `[default_size]`. -/
def sizeLines (size : SessionSize) : List (List Char) :=
  [headerLine "default_size".toList, keyLine "width" (Text.padded 0 size.width.toNat),
    keyLine "height" (Text.padded 0 size.height.toNat), []]

/-- The section `[environment]`. -/
def environmentLines (environment : BTreeMap (List Char)) : List (List Char) :=
  headerLine "environment".toList :: (variableLines environment ++ [[]])

/-- The section `[cleanup]`. -/
def cleanupLines (config : SesmanConfig) : List (List Char) :=
  [headerLine "cleanup".toList, keyLine "paths" (formatIniList config.cleanupPaths),
    keyLine "globs" (formatIniList config.cleanupGlobs), []]

/-- The lines of a rendered configuration, in their order. -/
def renderedLines (config : SesmanConfig) : List (List Char) :=
  globalLines config ++ sizeLines config.defaultSize ++ environmentLines config.environment ++
    cleanupLines config ++ config.components.flatMap componentLines

/-- `SesmanConfig::to_ini`. -/
def renderSesmanIni (config : SesmanConfig) : List Char :=
  (renderedLines config).flatMap fun line => line ++ ['\n']

end Ini

end Sesman

end Cheirizo
