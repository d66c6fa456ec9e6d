import LinuxcncCtrl.Lib.RingWindow
import LinuxcncCtrl.Spec.ScopeFrameQueue

/-! The polling side of scope/controller.cc: the shared memory of `scope_rt`, the copies that
`poll_once` makes of it and publishes, and `run`. The HAL thread's period and the clock are inputs.
`scope_rt` belongs to LinuxCNC; what is assumed of it in roll mode is `ScopeShm.capture`. -/

namespace LinuxcncCtrl

def kScopeChannelCount : ℕ := 16

inductive LinuxcncScopeState
  | idle
  | init
  | preTrig
  | trigWait
  | postTrig
  | done
  | reset
  deriving DecidableEq

inductive ScopeRunMode
  | run
  | single
  | roll
  deriving DecidableEq

/-- `hal_type_t`; a scope channel has one of the first four types. -/
inductive HalScopeType
  | bit
  | float
  | s32
  | u32
  | unspecified
  deriving DecidableEq

structure ScopeData (F : Type) where
  dU8 : ℕ
  dU32 : ℕ
  dS32 : ℤ
  dReal : F

def sampleValue {F : Type} [Zero F] [One F] [NatCast F] [IntCast F] (value : ScopeData F) :
    HalScopeType → F
  | .bit => if value.dU8 ≠ 0 then 1 else 0
  | .float => value.dReal
  | .s32 => value.dS32
  | .u32 => value.dU32
  | .unspecified => 0

structure ScopeShmChannel where
  dataType : HalScopeType
  dataLen : ℕ

structure ScopeShm (F : Type) where
  bufLen : ℤ
  watchdog : ℤ
  recLen : ℤ
  sampleLen : ℤ
  preTrig : ℤ
  start : ℤ
  samples : ℤ
  state : LinuxcncScopeState
  channels : List ScopeShmChannel
  buffer : ℕ → ScopeData F

inductive ScopeErrno
  | enodev
  | eperm
  | einval
  | ebusy
  | eagain
  | eproto
  deriving DecidableEq

structure ScopeControllerError where
  message : String
  code : ScopeErrno

abbrev ScopeChannelSamples (F : Type) := List (Option (List F))

structure ScopeCapture (F : Type) where
  channels : ScopeChannelSamples F
  samples : ℤ
  triggerIndex : ℤ
  samplePeriodNs : ℤ

structure ScopeCaptureDelta (F : Type) where
  channels : ScopeChannelSamples F
  samples : ℤ
  capacity : ℤ
  sequence : ℕ
  samplePeriodNs : ℤ
  reset : Bool

inductive ScopePayload (F : Type)
  | capture (capture : ScopeCapture F)
  | delta (delta : ScopeCaptureDelta F)

structure ScopeController (F : Type) where
  attached : Bool
  shm : ScopeShm F
  polling : Bool
  owner : ScopeOwner
  runMode : ScopeRunMode
  running : Bool
  configured : Bool
  preTrigger : ℤ
  frames : ScopeFrameQueue (ScopePayload F)
  heartbeatPeriod : ℤ
  heartbeatAt : ℤ
  deltaInitialized : Bool := false
  deltaStart : ℤ := 0
  deltaSamples : ℤ := 0
  deltaSampleLen : ℤ := 0
  deltaSequence : ℕ := 0
  deltaSnapshotAt : ℤ := 0

section Copy

variable {F : Type} [Zero F] [One F] [NatCast F] [IntCast F]

/-- The values of one channel, `count` samples from sample `first` of the window on. -/
def ScopeShm.copyValues (shm : ScopeShm F) (first count : ℤ) (dataType : HalScopeType)
    (packedChannel : ℤ) : List F :=
  (List.range count.toNat).map fun (sample : ℕ) =>
    let cell := shm.start + (first + sample) * shm.sampleLen + packedChannel
    sampleValue (shm.buffer (cell.tmod shm.bufLen).toNat) dataType

/-- The loop over the channels. The enabled ones are packed, so each is found behind those before. -/
def ScopeShm.copyChannels (shm : ScopeShm F) (first count : ℤ) :
    List ScopeShmChannel → ℤ → ScopeChannelSamples F
  | [], _ => []
  | channel :: rest, packedChannel =>
    if channel.dataLen = 0 then none :: shm.copyChannels first count rest packedChannel
    else
      some (shm.copyValues first count channel.dataType packedChannel) ::
        shm.copyChannels first count rest (packedChannel + 1)

namespace ScopeController

variable (impl : ScopeController F)

def ensureAttached : Except ScopeControllerError Unit :=
  if impl.attached then .ok () else .error ⟨"Scope controller is disposed", .enodev⟩

def ensureOwner (owner : ScopeOwner) : Except ScopeControllerError Unit :=
  if owner = [] ∨ impl.owner ≠ owner then
    .error ⟨"Scope controller is not owned by this client", .eperm⟩
  else .ok ()

def copyCaptureUnlocked (period : ℤ) (live : Bool) :
    Except ScopeControllerError (ScopeCapture F) := do
  impl.ensureAttached
  let control := impl.shm
  if control.samples ≤ 0 then throw ⟨"Scope capture is empty", .eagain⟩
  if control.sampleLen ≠ kScopeChannelCount ∨ control.recLen < control.samples ∨
      control.bufLen < control.samples ∨ control.start < 0 ∨ control.bufLen ≤ control.start ∨
      control.recLen ≤ 0 then
    throw ⟨"Invalid scope capture bounds", .eproto⟩
  return {
    channels := control.copyChannels 0 control.samples control.channels 0
    samples := control.samples
    triggerIndex := if live then control.samples - 1 else control.preTrig
    samplePeriodNs := period }

/-- Whether the delta replaces what the client has, and the number of its samples, as the counters
tell them. -/
def countDelta (ambiguousWrap : Bool) : Bool × ℤ :=
  let control := impl.shm
  if impl.deltaInitialized = false ∨ control.sampleLen ≠ impl.deltaSampleLen ∨
      control.samples < impl.deltaSamples ∨ ambiguousWrap = true then (true, control.samples)
  else if impl.deltaSamples < control.samples then (false, control.samples - impl.deltaSamples)
  else if control.start ≠ impl.deltaStart then
    let cells := (control.start - impl.deltaStart + control.bufLen).tmod control.bufLen
    if cells.tmod control.sampleLen ≠ 0 then (true, control.samples)
    else (false, cells.tdiv control.sampleLen)
  else (false, 0)

def boundedDelta (ambiguousWrap : Bool) : Bool × ℤ :=
  let counted := impl.countDelta ambiguousWrap
  if impl.shm.samples < counted.2 ∨ impl.shm.recLen ≤ counted.2 then (true, impl.shm.samples)
  else counted

/-- So long after the last copy the window can have gone round. -/
def ambiguousWrap (period now : ℤ) : Bool :=
  let elapsed := now - impl.deltaSnapshotAt
  impl.deltaInitialized && decide (0 < period) && decide (impl.shm.recLen * period ≤ elapsed)

def copyDeltaUnlocked (period now : ℤ) :
    Except ScopeControllerError (Option (ScopeCaptureDelta F) × ScopeController F) := do
  impl.ensureAttached
  let control := impl.shm
  if control.samples ≤ 0 then return (none, impl)
  if control.sampleLen ≠ kScopeChannelCount ∨ control.recLen ≤ 0 ∨
      control.recLen < control.samples ∨ control.start < 0 ∨ control.bufLen ≤ control.start then
    throw ⟨"Invalid scope delta bounds", .eproto⟩
  let (reset, count) := impl.boundedDelta (impl.ambiguousWrap period now)
  let impl' :=
    { impl with
      deltaInitialized := true
      deltaStart := control.start
      deltaSamples := control.samples
      deltaSampleLen := control.sampleLen
      deltaSnapshotAt := now }
  if count = 0 then return (none, impl')
  let sequence := if reset then control.samples.toNat else impl.deltaSequence + count.toNat
  let delta :=
    { channels := control.copyChannels (control.samples - count) count control.channels 0
      samples := count
      capacity := control.recLen
      sequence
      samplePeriodNs := period
      reset }
  return (some delta, { impl' with deltaSequence := sequence })

def beat (now : ℤ) : ScopeController F :=
  if impl.heartbeatAt = 0 ∨ impl.heartbeatPeriod ≤ now - impl.heartbeatAt then
    { impl with
      shm := { impl.shm with watchdog := min (impl.shm.watchdog + 1) 10 }
      heartbeatAt := now }
  else impl

def publish (frame : ScopeFrame (ScopePayload F)) : ScopeController F :=
  { impl with frames := (impl.frames.publish frame).2 }

def setState (state : LinuxcncScopeState) : ScopeController F :=
  { impl with shm := { impl.shm with state } }

def pollRoll (period now : ℤ) : Option (ScopeCaptureDelta F) × ScopeController F :=
  match impl.copyDeltaUnlocked period now with
  | .error _ => (none, { impl with deltaInitialized := false })
  | .ok (delta, impl) =>
    let impl :=
      match delta with
      | some delta => impl.publish { kind := .roll, payload := .delta delta }
      | none => impl
    (delta, if impl.shm.state = .done then impl.setState .init else impl)

def pollCapture (period : ℤ) : ScopeController F :=
  match impl.copyCaptureUnlocked period false with
  | .error _ => { impl with deltaInitialized := false }
  | .ok capture =>
    let impl := impl.publish { kind := .capture, payload := .capture capture }
    if impl.runMode = .run then impl.setState .init else { impl with running := false }

/-- One poll; the first component is the delta it publishes in roll mode. An exception outside the
handler ends the poll thread. -/
def pollOnce (period now : ℤ) :
    Except ScopeControllerError (Option (ScopeCaptureDelta F) × ScopeController F) :=
  if impl.polling = false ∨ impl.owner = [] then .ok (none, impl)
  else do
    impl.ensureAttached
    let impl := impl.beat now
    if impl.runMode = .roll ∧ impl.running then return impl.pollRoll period now
    else if impl.running ∧ impl.shm.state = .done then return (none, impl.pollCapture period)
    else return (none, impl)

def run (owner : ScopeOwner) (mode : ScopeRunMode) :
    Except ScopeControllerError (ScopeController F) := do
  impl.ensureAttached
  impl.ensureOwner owner
  if impl.configured = false then throw ⟨"scope is not configured", .einval⟩
  if impl.shm.state ≠ .idle ∧ impl.shm.state ≠ .done then
    throw ⟨"scope is already acquiring", .ebusy⟩
  let last := max 0 (impl.shm.recLen - 1)
  let preTrig := if mode = .roll then last else max 0 (min impl.preTrigger last)
  return {
    impl with
    shm := { impl.shm with preTrig, state := .init }
    deltaInitialized := false
    deltaSequence := 0
    runMode := mode
    running := true }

end ScopeController

end Copy

end LinuxcncCtrl
