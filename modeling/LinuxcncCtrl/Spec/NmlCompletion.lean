import LinuxcncCtrl.Lib.Runs

/-! `CommandCompletionTracker` of linuxcnc/nml_adapter.cc. Its functions change the tracker under its
mutex and finish the commands they have taken out afterwards, so the callbacks are steps of their own.
The clock is an input; no deadline stands for `time_point::max()`. -/

namespace LinuxcncCtrl

inductive NmlRcsStatus
  | uninitialized
  | done
  | exec
  | error
  | unknown (value : Int32)
  deriving DecidableEq

/-- The part of a status snapshot that the tracker reads. -/
structure NmlCommandEcho where
  echoSerialNumber : Int32 := 0
  rcsStatus : NmlRcsStatus := .uninitialized

/-- The difference of two serials modulo 2³², read as a signed number, is positive. -/
def nmlSerialAfter (lhs rhs : Int32) : Bool :=
  decide (0 < (lhs.toUInt32 - rhs.toUInt32).toInt32)

inductive CompletionResolution
  | pending
  | completed
  | rejected
  | timedOut
  | unavailable
  deriving DecidableEq

structure PendingCommand where
  command : ℕ
  serial : Int32
  deadline : Option ℤ
  afterObservation : ℕ

inductive CompletionReport
  | completed
  | failed (error : String)
  deriving DecidableEq

def CompletionResolution.finish : CompletionResolution → Option CompletionReport
  | .completed => some .completed
  | .rejected => some (.failed "LinuxCNC rejected the command")
  | .timedOut => some (.failed "timed out waiting for LinuxCNC command completion")
  | .unavailable => some (.failed "LinuxCNC NML status channel is unavailable")
  | .pending => none

structure TrackedCommand where
  serial : Int32
  after : ℕ

/-- `finishing` has the commands that some thread has taken out and not finished yet; `tracked`,
`observations` and `reports` keep the calls that were made. -/
structure CommandCompletionTracker where
  timeout : ℤ
  latest : NmlCommandEcho := {}
  pending : List PendingCommand := []
  observedAt : ℤ := 0
  haveSnapshot : Bool := false
  channelHealthy : Bool := false
  observationSequence : ℕ := 0
  tracked : List TrackedCommand := []
  observations : List NmlCommandEcho := []
  finishing : List (List (PendingCommand × CompletionResolution)) := []
  reports : List (ℕ × CompletionReport) := []

/-- `entered` is the clock when the deadline is computed, `now` when the command is resolved. -/
inductive CompletionAction
  | track (serial : Int32) (entered now : ℤ)
  | observe (snapshot : NmlCommandEcho) (now : ℤ)
  | tick (now : ℤ)
  | channelFailed
  | finish (index : ℕ)

def CompletionAction.observes : CompletionAction → Bool
  | .observe _ _ => true
  | _ => false

def PendingCommand.expired (pending : PendingCommand) (now : ℤ) : CompletionResolution :=
  if ∃ deadline ∈ pending.deadline, deadline ≤ now then .timedOut else .pending

def PendingCommand.resolve (pending : PendingCommand) (snapshot : NmlCommandEcho) (now : ℤ)
    (observationSequence : ℕ) : CompletionResolution :=
  if observationSequence ≤ pending.afterObservation then pending.expired now
  else if nmlSerialAfter snapshot.echoSerialNumber pending.serial then .completed
  else if snapshot.echoSerialNumber = pending.serial then
    if snapshot.rcsStatus = .done then .completed
    else if snapshot.rcsStatus = .error then .rejected
    else pending.expired now
  else pending.expired now

namespace CommandCompletionTracker

variable (tracker : CommandCompletionTracker)

def resolve (now : ℤ) (pending : PendingCommand) : CompletionResolution :=
  pending.resolve tracker.latest now tracker.observationSequence

def collectReady (now : ℤ) : CommandCompletionTracker :=
  let ready := tracker.pending.filter fun pending => tracker.resolve now pending ≠ .pending
  { tracker with
    pending := tracker.pending.filter fun pending => tracker.resolve now pending = .pending
    finishing := tracker.finishing ++
      [ready.map fun pending => (pending, tracker.resolve now pending)] }

def track (serial : Int32) (entered now : ℤ) : CommandCompletionTracker :=
  let pending : PendingCommand :=
    { command := tracker.tracked.length
      serial
      deadline := if tracker.timeout = 0 then none else some (entered + tracker.timeout)
      afterObservation := tracker.observationSequence }
  let resolution :=
    if tracker.channelHealthy = false then .unavailable
    else if tracker.haveSnapshot then tracker.resolve now pending
    else .pending
  let tracked : TrackedCommand := ⟨serial, tracker.observations.length⟩
  if resolution = .pending then
    { tracker with
      tracked := tracker.tracked ++ [tracked]
      pending := tracker.pending ++ [pending] }
  else
    { tracker with
      tracked := tracker.tracked ++ [tracked]
      finishing := tracker.finishing ++ [[(pending, resolution)]] }

def observe (snapshot : NmlCommandEcho) (now : ℤ) : CommandCompletionTracker :=
  { tracker with
    latest := snapshot
    haveSnapshot := true
    channelHealthy := true
    observedAt := now
    observationSequence := tracker.observationSequence + 1
    observations := tracker.observations ++ [snapshot] }.collectReady now

def channelFailed : CommandCompletionTracker :=
  { tracker with
    channelHealthy := false
    pending := []
    finishing := tracker.finishing ++
      [tracker.pending.map fun pending => (pending, .unavailable)] }

def step : CompletionAction → Option CommandCompletionTracker
  | .track serial entered now => some (tracker.track serial entered now)
  | .observe snapshot now => some (tracker.observe snapshot now)
  | .tick now => some (tracker.collectReady now)
  | .channelFailed => some tracker.channelFailed
  | .finish index =>
    match tracker.finishing[index]? with
    | some ((pending, resolution) :: rest) =>
      some { tracker with
        finishing := tracker.finishing.set index rest
        reports := tracker.reports ++
          (resolution.finish.map fun report => (pending.command, report)).toList }
    | _ => none

end CommandCompletionTracker

/-- `OwnedChannel` with its `RetryState`: times are in nanoseconds, `delay` is in milliseconds. `failures`, those
since a channel was made, and `failedAt` are there for the proofs. -/
structure OwnedChannel where
  valid : Bool := false
  delay : ℕ := 100
  nextAttempt : ℕ := 0
  failures : ℕ := 0
  failedAt : ℕ := 0

namespace OwnedChannel

variable (channel : OwnedChannel)

def failed (now : ℕ) : OwnedChannel where
  delay := min (channel.delay * 2) 5000
  nextAttempt := now + 1000000 * channel.delay
  failures := channel.failures + 1
  failedAt := now

/-- `get` calls the factory. -/
def attempts (now : ℕ) : Bool := !channel.valid && channel.nextAttempt ≤ now

/-- `made` says whether the factory makes a valid channel. -/
def get (now failedAt : ℕ) (made : Bool) : OwnedChannel :=
  if !channel.attempts now then channel
  else if made then { valid := true } else channel.failed failedAt

end OwnedChannel

/-- What a valid channel has: nothing that can be read, another message, or a status. -/
inductive StatusPeek
  | lost
  | other
  | status (snapshot : NmlCommandEcho)

structure NmlStatusChannel where
  channel : OwnedChannel := {}
  tracker : CommandCompletionTracker

namespace NmlStatusChannel

/-- Only `poll_status` observes. -/
inductive Action
  | pollStatus (now failedAt : ℕ) (made : Bool) (peek : StatusPeek) (resolvedAt : ℤ)
  | command (action : CompletionAction)

/-- The channel after `poll_status`, and its call of the tracker. -/
def polled (channel : OwnedChannel) (failedAt : ℕ) (peek : StatusPeek) (resolvedAt : ℤ) :
    OwnedChannel × CompletionAction :=
  if channel.valid then
    match peek with
    | .lost => (channel.failed failedAt, .channelFailed)
    | .other => (channel, .tick resolvedAt)
    | .status snapshot => (channel, .observe snapshot resolvedAt)
  else (channel, .channelFailed)

def step (s : NmlStatusChannel) : Action → Option NmlStatusChannel
  | .pollStatus now failedAt made peek resolvedAt =>
    let polled := polled (s.channel.get now failedAt made) failedAt peek resolvedAt
    (s.tracker.step polled.2).map (⟨polled.1, ·⟩)
  | .command action =>
    if action.observes then none else (s.tracker.step action).map (⟨s.channel, ·⟩)

end NmlStatusChannel

end LinuxcncCtrl
