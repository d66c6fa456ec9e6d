import LinuxcncCtrl.Lib.CString

/-! The daemon's configuration: `parse_config` and `validate_config` of daemon/config.cc, `split_endpoint`
of telemetry_websocket_server.cc, and the places where a duration of the configuration is added to a time
of the steady clock. A text is the list of its characters. Sizes are below 2⁶⁴ by parsing; a duration is the
signed count of its unit. What the file system says is an input: which paths are regular files, and the
components of a path after `configured_location`, if it can be resolved. -/

namespace LinuxcncCtrl

open Lib

def maxWorkspaceTtl : ℕ := 24 * 30 * 60 * 60

structure DaemonConfig where
  endpoint : List Char := "127.0.0.1:50051".toList
  telemetryEndpoint : List Char := "127.0.0.1:50052".toList
  iniFile : List Char := []
  nmlFile : List Char := []
  workspaceRoot : List Char := "/var/lib/linuxcnc-grpc/workspaces".toList
  activeProgramDirectory : List Char := "/var/lib/linuxcnc-grpc/active-program".toList
  tlsCertificate : List Char := []
  tlsPrivateKey : List Char := []
  tlsClientCa : List Char := []
  workspaceQuotaBytes : ℕ := 256 * 1024 * 1024
  totalQuotaBytes : ℕ := 1024 * 1024 * 1024
  maxWorkspaces : ℕ := 64
  maxWorkspaceEntries : ℕ := 4096
  maxUploadMetadataBytes : ℕ := 1024 * 1024
  workspaceTtl : ℤ := 24 * 60 * 60
  uploadTimeout : ℤ := 5 * 60
  commandQueueCapacity : ℕ := 128
  statusReplayCapacity : ℕ := 256
  gcodeBatchSize : ℕ := 128
  scopeSamples : ℕ := 32000
  maxRemoteComponents : ℕ := 64
  maxRemoteHalItems : ℕ := 4096
  commandCompletionTimeout : ℤ := 0
  statusPeriod : ℤ := 50
  errorPeriod : ℤ := 100
  positionPeriod : ℤ := 10
  topologyPeriod : ℤ := 2000
  scopePeriod : ℤ := 20
  scopeHeartbeat : ℤ := 100
  componentHeartbeatInterval : ℤ := 1000
  componentHeartbeatTimeout : ℤ := 3000
  componentDefaultSamplingPeriod : ℤ := 20
  componentMinSamplingPeriod : ℤ := 5
  componentMaxSamplingPeriod : ℤ := 1000
  tls : Bool := false
  mtls : Bool := false
  reflection : Bool := false
  allowPlaintextNonLoopback : Bool := false
  deriving DecidableEq

structure ConfigFiles where
  isRegularFile : List Char → Bool
  configuredLocation : List Char → Option (List (List Char))

def endpointHost (endpoint : List Char) : List Char :=
  match endpoint with
  | [] => []
  | '[' :: rest =>
    match (endpoint.findIdx? fun c => c = ']') with
    | none => []
    | some finish => rest.take (finish - 1)
  | _ =>
    match splitLast ':' endpoint with
    | none => endpoint
    | some (host, _) => host

def loopbackHost (host : List Char) : Bool :=
  host = "localhost".toList ∨ host = "127.0.0.1".toList ∨ host = "::1".toList ∨ host = "[::1]".toList

/-- `split_endpoint`: the host and the port given to the resolver. -/
def splitEndpoint (endpoint : List Char) : Except String (List Char × List Char) :=
  match splitLast ':' endpoint with
  | none => .error "telemetry endpoint must be HOST:PORT"
  | some (host, port) =>
    if 1 < host.length ∧ host.head? = some '[' ∧ host.getLast? = some ']' then
      .ok ((host.drop 1).take (host.length - 2), port)
    else .ok (host, port)

namespace DaemonConfig

variable (config : DaemonConfig) (files : ConfigFiles)

/-- `valid_endpoint`: each condition that is refused, with its message. -/
def endpointChecks (endpoint : List Char) (name : String) (tlsProtected : Bool) : List (Bool × String) :=
  [(match splitLast ':' endpoint with
      | none => true
      | some (host, port) => host.isEmpty || port.isEmpty,
    name ++ " must be HOST:PORT"),
  (!tlsProtected && !config.allowPlaintextNonLoopback && !loopbackHost (endpointHost endpoint),
    name ++ " on a non-loopback host requires --allow-plaintext-non-loopback")]

def pathContains (parent child : List (List Char)) : Bool := parent.isPrefixOf child

def locationsOverlap : Bool :=
  match files.configuredLocation config.workspaceRoot, files.configuredLocation config.activeProgramDirectory with
  | some root, some active => pathContains root active || pathContains active root
  | _, _ => false

def pathChecks : List (Bool × String) :=
  [(config.mtls && !config.tls, "mTLS requires TLS"),
  (config.tls && (config.tlsCertificate.isEmpty || config.tlsPrivateKey.isEmpty),
    "TLS requires --tls-certificate and --tls-private-key"),
  (config.mtls && config.tlsClientCa.isEmpty, "mTLS requires --tls-client-ca"),
  (config.tls && (!files.isRegularFile config.tlsCertificate || !files.isRegularFile config.tlsPrivateKey),
    "TLS certificate and private key must be regular files"),
  (config.mtls && !files.isRegularFile config.tlsClientCa, "mTLS client CA must be a regular file"),
  (!config.nmlFile.isEmpty && !files.isRegularFile config.nmlFile, "NML configuration must be a regular file"),
  ((files.configuredLocation config.workspaceRoot).isNone, "workspace root cannot be resolved"),
  ((files.configuredLocation config.activeProgramDirectory).isNone,
    "active program directory cannot be resolved"),
  (config.locationsOverlap files, "workspace root and active program directory must not overlap")]

def sizeChecks : List (Bool × String) :=
  [(config.workspaceQuotaBytes = 0 ∨ config.totalQuotaBytes = 0 ∨ config.maxWorkspaces = 0 ∨
      config.maxWorkspaceEntries = 0 ∨ config.maxUploadMetadataBytes = 0,
    "workspace and upload limits must be non-zero"),
  (config.totalQuotaBytes < config.workspaceQuotaBytes, "workspace quota must not exceed total quota"),
  (config.commandQueueCapacity = 0, "command queue capacity must be non-zero"),
  (config.maxRemoteComponents = 0 ∨ config.maxRemoteHalItems = 0,
    "remote HAL component and item budgets must be non-zero"),
  (2 ^ 64 - 1 - 65 < config.maxRemoteComponents, "remote HAL component budget is too large"),
  (config.statusReplayCapacity = 0 ∨ config.gcodeBatchSize = 0,
    "status replay and G-code batch capacities must be non-zero"),
  (config.scopeSamples < 1000 ∨ 1000000 < config.scopeSamples,
    "scope sample count must be between 1000 and 1000000")]

def durationRefused : Bool :=
  config.workspaceTtl ≤ 0 ∨ (maxWorkspaceTtl : ℤ) < config.workspaceTtl ∨ config.uploadTimeout ≤ 0 ∨
    config.statusPeriod ≤ 0 ∨ config.errorPeriod ≤ 0 ∨ config.positionPeriod ≤ 0 ∨
    config.topologyPeriod ≤ 0 ∨ config.scopePeriod ≤ 0 ∨ config.scopeHeartbeat ≤ 0 ∨
    config.componentHeartbeatInterval ≤ 0 ∨
    config.componentHeartbeatTimeout ≤ config.componentHeartbeatInterval ∨
    config.componentMinSamplingPeriod ≤ 0 ∨
    config.componentMaxSamplingPeriod < config.componentMinSamplingPeriod ∨
    config.componentDefaultSamplingPeriod < config.componentMinSamplingPeriod ∨
    config.componentMaxSamplingPeriod < config.componentDefaultSamplingPeriod

/-- The checks of `validate_config`, in their order. -/
def checks : List (Bool × String) :=
  config.endpointChecks config.endpoint "endpoint" config.tls ++
    config.endpointChecks config.telemetryEndpoint "telemetry endpoint" false ++
    [(decide (config.endpoint = config.telemetryEndpoint), "gRPC and telemetry endpoints must differ")] ++
    config.pathChecks files ++ config.sizeChecks ++
    [(config.durationRefused, "daemon periods, upload timeout, and workspace TTL must be positive")]

/-- `validate_config`: the message of the first check that refuses. -/
def validate : Except String Unit :=
  match (config.checks files).find? Prod.fst with
  | some (_, message) => .error message
  | none => .ok ()

end DaemonConfig

def optionValue (argument option : List Char) : Option (List Char) :=
  if (option ++ ['=']).isPrefixOf argument then some (argument.drop (option.length + 1)) else none

/-- `parse_size`: `std::from_chars` for an unsigned number of 64 bits, over the whole text. -/
def parseSize (value : List Char) : Option ℕ :=
  let n := value.foldl (fun n c => 10 * n + (c.toNat - '0'.toNat)) 0
  if value ≠ [] ∧ value.all Char.isDigit ∧ n < 2 ^ 64 then some n else none

/-- The signed 64 bit count a `std::chrono` duration makes of an unsigned one. -/
def signedCount (n : ℕ) : ℤ := if n < 2 ^ 63 then n else n - 2 ^ 64

inductive DurationOption
  | workspaceTtl | uploadTimeout | commandCompletionTimeout | statusPeriod | errorPeriod | positionPeriod
  | topologyPeriod | scopePeriod | scopeHeartbeat | componentHeartbeatInterval | componentHeartbeatTimeout
  | componentDefaultSampling | componentMinSampling | componentMaxSampling
  deriving DecidableEq

namespace DurationOption

def flag : DurationOption → String
  | workspaceTtl => "--workspace-ttl-seconds"
  | uploadTimeout => "--upload-timeout-seconds"
  | commandCompletionTimeout => "--command-completion-timeout-ms"
  | statusPeriod => "--status-period-ms"
  | errorPeriod => "--error-period-ms"
  | positionPeriod => "--position-period-ms"
  | topologyPeriod => "--topology-period-ms"
  | scopePeriod => "--scope-period-ms"
  | scopeHeartbeat => "--scope-heartbeat-ms"
  | componentHeartbeatInterval => "--component-heartbeat-interval-ms"
  | componentHeartbeatTimeout => "--component-heartbeat-timeout-ms"
  | componentDefaultSampling => "--component-default-sampling-ms"
  | componentMinSampling => "--component-min-sampling-ms"
  | componentMaxSampling => "--component-max-sampling-ms"

/-- The options in seconds are checked as they are parsed. -/
def accepts (n : ℕ) : DurationOption → Bool
  | workspaceTtl => n ≠ 0 ∧ n ≤ maxWorkspaceTtl
  | uploadTimeout => n ≠ 0
  | _ => true

def store (config : DaemonConfig) (count : ℤ) : DurationOption → DaemonConfig
  | workspaceTtl => { config with workspaceTtl := count }
  | uploadTimeout => { config with uploadTimeout := count }
  | commandCompletionTimeout => { config with commandCompletionTimeout := count }
  | statusPeriod => { config with statusPeriod := count }
  | errorPeriod => { config with errorPeriod := count }
  | positionPeriod => { config with positionPeriod := count }
  | topologyPeriod => { config with topologyPeriod := count }
  | scopePeriod => { config with scopePeriod := count }
  | scopeHeartbeat => { config with scopeHeartbeat := count }
  | componentHeartbeatInterval => { config with componentHeartbeatInterval := count }
  | componentHeartbeatTimeout => { config with componentHeartbeatTimeout := count }
  | componentDefaultSampling => { config with componentDefaultSamplingPeriod := count }
  | componentMinSampling => { config with componentMinSamplingPeriod := count }
  | componentMaxSampling => { config with componentMaxSamplingPeriod := count }

def stored (config : DaemonConfig) : DurationOption → ℤ
  | workspaceTtl => config.workspaceTtl
  | uploadTimeout => config.uploadTimeout
  | commandCompletionTimeout => config.commandCompletionTimeout
  | statusPeriod => config.statusPeriod
  | errorPeriod => config.errorPeriod
  | positionPeriod => config.positionPeriod
  | topologyPeriod => config.topologyPeriod
  | scopePeriod => config.scopePeriod
  | scopeHeartbeat => config.scopeHeartbeat
  | componentHeartbeatInterval => config.componentHeartbeatInterval
  | componentHeartbeatTimeout => config.componentHeartbeatTimeout
  | componentDefaultSampling => config.componentDefaultSamplingPeriod
  | componentMinSampling => config.componentMinSamplingPeriod
  | componentMaxSampling => config.componentMaxSamplingPeriod

def number (option : DurationOption) (argument : List Char) : Option ℕ :=
  (optionValue argument option.flag.toList).bind parseSize

def given (option : DurationOption) (arguments : List (List Char)) : Option ℕ :=
  (arguments.filterMap option.number).getLast?

end DurationOption

/-- An option of `parse_config`: it refuses a value or stores it. -/
structure ConfigOption where
  flag : String
  assign : DaemonConfig → List Char → Option DaemonConfig

namespace ConfigOption

def text (flag : String) (store : DaemonConfig → List Char → DaemonConfig) : ConfigOption :=
  ⟨flag, fun config value => some (store config value)⟩

def size (flag : String) (store : DaemonConfig → ℕ → DaemonConfig) : ConfigOption :=
  ⟨flag, fun config value => (parseSize value).map (store config)⟩

def duration (option : DurationOption) : ConfigOption :=
  ⟨option.flag, fun config value => (parseSize value).bind fun n =>
    if option.accepts n then some (option.store config (signedCount n)) else none⟩

/-- The options in the order in which `parse_config` tries them. -/
def all : List ConfigOption :=
  [text "--endpoint" fun config value => { config with endpoint := value },
    text "--telemetry-endpoint" fun config value => { config with telemetryEndpoint := value },
    text "--ini" fun config value => { config with iniFile := value },
    text "--nml" fun config value => { config with nmlFile := value },
    text "--workspace-root" fun config value => { config with workspaceRoot := value },
    text "--active-program-directory" fun config value => { config with activeProgramDirectory := value },
    text "--tls-certificate" fun config value => { config with tlsCertificate := value },
    text "--tls-private-key" fun config value => { config with tlsPrivateKey := value },
    text "--tls-client-ca" fun config value => { config with tlsClientCa := value },
    size "--workspace-quota" fun config n => { config with workspaceQuotaBytes := n },
    size "--total-quota" fun config n => { config with totalQuotaBytes := n },
    size "--max-workspaces" fun config n => { config with maxWorkspaces := n },
    size "--max-workspace-entries" fun config n => { config with maxWorkspaceEntries := n },
    size "--max-upload-metadata" fun config n => { config with maxUploadMetadataBytes := n },
    duration .workspaceTtl, duration .uploadTimeout,
    size "--command-queue-capacity" fun config n => { config with commandQueueCapacity := n },
    duration .commandCompletionTimeout,
    size "--status-replay-capacity" fun config n => { config with statusReplayCapacity := n },
    size "--gcode-batch-size" fun config n => { config with gcodeBatchSize := n },
    size "--scope-samples" fun config n => { config with scopeSamples := n },
    size "--max-remote-components" fun config n => { config with maxRemoteComponents := n },
    size "--max-remote-hal-items" fun config n => { config with maxRemoteHalItems := n },
    duration .statusPeriod, duration .errorPeriod, duration .positionPeriod, duration .topologyPeriod,
    duration .scopePeriod, duration .scopeHeartbeat, duration .componentHeartbeatInterval,
    duration .componentHeartbeatTimeout, duration .componentDefaultSampling,
    duration .componentMinSampling, duration .componentMaxSampling]

end ConfigOption

/-- The body of the loop of `parse_config`; the flag is `show_help`. -/
def parseArgument (parsed : DaemonConfig × Bool) (argument : List Char) : Except String (DaemonConfig × Bool) :=
  let (config, showHelp) := parsed
  if argument = "--help".toList ∨ argument = "-h".toList then .ok (config, true)
  else if argument = "--tls".toList then .ok ({ config with tls := true }, showHelp)
  else if argument = "--mtls".toList then .ok ({ config with mtls := true }, showHelp)
  else if argument = "--reflection".toList then .ok ({ config with reflection := true }, showHelp)
  else if argument = "--allow-plaintext-non-loopback".toList then
    .ok ({ config with allowPlaintextNonLoopback := true }, showHelp)
  else
    match ConfigOption.all.findSome? fun option =>
        (optionValue argument option.flag.toList).map fun value => (option, value) with
    | none => .error ("unknown option: " ++ String.ofList argument)
    | some (option, value) =>
      match option.assign config value with
      | none => .error ("invalid " ++ option.flag)
      | some config => .ok (config, showHelp)

def parseConfig (files : ConfigFiles) (arguments : List (List Char)) : Except String (DaemonConfig × Bool) := do
  let parsed ← arguments.foldlM parseArgument ({}, false)
  parsed.1.validate files
  return parsed

/-- Where a duration of the configuration is added to a time of the steady clock: the completion of a command,
the refresh of the topology, the sampling of a component that asked for a period (`sampling_period_ms`), and the
polls of status, errors, positions and scope. -/
inductive Deadline
  | commandCompletion | topology | sample (requested : UInt32) | status | error | position | scopePoll

/-- The result of an operation on signed 64 bit integers, if it can be represented. -/
def int64 (n : ℤ) : Option ℤ := if -2 ^ 63 ≤ n ∧ n < 2 ^ 63 then some n else none

/-- A time in nanoseconds and a duration in milliseconds: the duration is converted, then added. -/
def addMilliseconds (time count : ℤ) : Option ℤ :=
  (int64 (count * 1000000)).bind fun nanoseconds => int64 (time + nanoseconds)

namespace DaemonConfig

variable (config : DaemonConfig)

/-- The period of a component: `std::clamp` of what it asked for. -/
def samplingPeriod (requested : UInt32) : ℤ :=
  let period := if requested = 0 then config.componentDefaultSamplingPeriod else (requested.toNat : ℤ)
  if period < config.componentMinSamplingPeriod then config.componentMinSamplingPeriod
  else if config.componentMaxSamplingPeriod < period then config.componentMaxSamplingPeriod
  else period

/-- `none` where the arithmetic overflows. A completion timeout of zero is no deadline. -/
def deadline (time : ℤ) : Deadline → Option ℤ
  | .commandCompletion =>
    if config.commandCompletionTimeout = 0 then some (2 ^ 63 - 1)
    else addMilliseconds time config.commandCompletionTimeout
  | .topology => addMilliseconds time config.topologyPeriod
  | .sample requested => addMilliseconds time (config.samplingPeriod requested)
  | .status => addMilliseconds time config.statusPeriod
  | .error => addMilliseconds time config.errorPeriod
  | .position => addMilliseconds time config.positionPeriod
  | .scopePoll => addMilliseconds time config.scopePeriod

end DaemonConfig

end LinuxcncCtrl
