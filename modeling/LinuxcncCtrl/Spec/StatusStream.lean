import LinuxcncCtrl.Lib.DeltaCodec
import LinuxcncCtrl.Lib.Runs
import LinuxcncCtrl.Spec.CallbackRuntime

/-! The status stream of `service.cc`: the service with its bounded history, one `StatusReactor`,
the poller thread that observes and publishes, and the executor that runs wakes. The reactor's own
callbacks are serialised by its lifetime gate; everything else interleaves freely. The system also
records what no thread stores: every sample ever taken, the last encoding observed, and each event
handed to the transport with the history it was chosen from. -/

namespace LinuxcncCtrl

open Lib

/-- A delta codec `E`/`D` together with the encoding of the native snapshots `N`. -/
structure StatusCodec (N E D : Type) extends DeltaCodec E D where
  encode : N → E

inductive StatusPayload (E D : Type)
  | snapshot (status : E)
  | replay (fromSequence toSequence : ℕ) (snapshot : E) (deltas : List D)
  | delta (delta : D)
  deriving DecidableEq

structure WatchStatusEvent (E D : Type) where
  sequence : ℕ
  payload : StatusPayload E D
  deriving DecidableEq

variable {N E D : Type}

/-- What a client makes of one event, given the status it holds. -/
def clientApply (codec : DeltaCodec E D) (held : Option E) (event : WatchStatusEvent E D) :
    Option E :=
  match event.payload with
  | .snapshot status => some status
  | .replay _ _ snapshot deltas => some (codec.applyAll deltas snapshot)
  | .delta delta => held.map (codec.apply delta)

def clientStatus (codec : DeltaCodec E D) (events : List (WatchStatusEvent E D)) : Option E :=
  events.foldl (clientApply codec) none

structure StatusService (E D : Type) where
  replayCapacity : ℕ
  latest : Option (Sample E D) := none
  statusAvailable : Bool := false
  sequence : ℕ := 0
  history : List (Sample E D) := []

/-- The front entries beyond the capacity are evicted one by one; that leaves the newest ones. -/
def trimHistory (capacity : ℕ) (history : List (Sample E D)) : List (Sample E D) :=
  history.drop (history.length - capacity)

/-- The part of `observe_status` under the status lock; `true` when there is something to publish. -/
def StatusService.observe (codec : StatusCodec N E D) (service : StatusService E D) (fresh : N)
    (forceRebase : Bool) : StatusService E D × Bool :=
  let encoded := codec.encode fresh
  match service.latest with
  | none =>
    let sample : Sample E D := ⟨1, encoded, none⟩
    ({ service with sequence := 1, latest := some sample, history := service.history ++ [sample] },
      true)
  | some latest =>
    let sequence := service.sequence + 1
    if forceRebase then
      let sample : Sample E D := ⟨sequence, encoded, none⟩
      ({ service with sequence, latest := some sample, history := [sample] }, true)
    else
      match codec.make latest.encoded encoded sequence with
      | none => (service, false)
      | some delta =>
        let sample : Sample E D := ⟨sequence, encoded, some delta⟩
        ({ service with
            sequence, latest := some sample,
            history := trimHistory service.replayCapacity (service.history ++ [sample]) }, true)

structure StatusHistorySelection (E D : Type) where
  anchorRetained : Bool
  entries : List (Sample E D)

def selectStatusHistory (history : List (Sample E D)) (anchor : ℕ) (includeReplay : Bool) :
    StatusHistorySelection E D :=
  let found := history.dropWhile (·.sequence ≠ anchor)
  { anchorRetained := !found.isEmpty
    entries :=
      if includeReplay ∧ anchor ≠ 0 ∧ found ≠ [] then found else history.getLast?.toList }

structure StatusReactor (E D : Type) where
  after : ℕ := 0
  initialWritten : Bool := false
  cursor : ℕ := 0
  previous : Option (Sample E D) := none
  writingSample : Option (Sample E D) := none
  wakeScheduled : Bool := false
  subscribed : Bool := false
  writeFinish : DeferredWriteFinish := {}
  gate : GateState := .opened
  finished : Option GrpcStatus := none

namespace StatusReactor

variable (r : StatusReactor E D)

def finishIfReady : StatusReactor E D × Bool :=
  match r.writeFinish.takeFinishStatus with
  | none => (r, false)
  | some (status, writeFinish) =>
    if r.gate = .opened then
      ({ r with writeFinish, gate := .finishing, subscribed := false, finished := some status },
        true)
    else ({ r with writeFinish }, true)

def requestFinish (status : GrpcStatus) : StatusReactor E D :=
  ({ r with subscribed := false, writeFinish := r.writeFinish.requestFinish status
      : StatusReactor E D }).finishIfReady.1

def scheduleWake (accepted : Bool) : StatusReactor E D :=
  if r.writeFinish.terminationRequested ∨ r.gate ≠ .opened ∨ r.wakeScheduled then r
  else if accepted then { r with wakeScheduled := true }
  else r.requestFinish ⟨.resourceExhausted, "wire encoding queue is full"⟩

def writeDone (ok accepted : Bool) : StatusReactor E D :=
  let done : StatusReactor E D := { r with writeFinish := r.writeFinish.completeWrite ok }
  let (done, finished) := done.finishIfReady
  if finished ∨ !ok then done
  else
    ({ done with
        previous := done.writingSample
        cursor := (done.writingSample.map (·.sequence)).getD 0
        writingSample := none
        initialWritten := true : StatusReactor E D }).scheduleWake accepted

/-- `LifetimeGate::invoke`: a call that finds the gate closed does nothing. -/
def invoke (call : StatusReactor E D → StatusReactor E D) : StatusReactor E D :=
  if r.gate = .opened then call r else r

def onCancel : StatusReactor E D :=
  r.invoke fun r => r.requestFinish ⟨.cancelled, "status stream cancelled"⟩

def shutdown : StatusReactor E D :=
  r.invoke fun r => r.requestFinish ⟨.unavailable, "server shutting down"⟩

/-- The event `wake` composes from a selection whose last entry is `latest`; `none` when it returns
without writing. -/
def composeEvent (codec : DeltaCodec E D) (selection : StatusHistorySelection E D)
    (latest : Sample E D) : Option (WatchStatusEvent E D) :=
  if !r.initialWritten then
    match selection.entries with
    | first :: rest =>
      if r.after ≠ 0 ∧ selection.anchorRetained then
        some ⟨latest.sequence, .replay r.after latest.sequence first.encoded
          (rest.filterMap (·.deltaFromPrevious))⟩
      else some ⟨latest.sequence, .snapshot latest.encoded⟩
    | [] => none
  else if latest.sequence = r.cursor then none
  else if !selection.anchorRetained then some ⟨latest.sequence, .snapshot latest.encoded⟩
  else
    match r.previous with
    | some previous =>
      (if previous.sequence + 1 = latest.sequence then latest.deltaFromPrevious
        else codec.make previous.encoded latest.encoded latest.sequence).map fun delta =>
          ⟨latest.sequence, .delta delta⟩
    | none => none

def anchor : ℕ :=
  if r.initialWritten then r.cursor else r.after

end StatusReactor

inductive WatchStage
  | absent | constructing | subscribed | running
  deriving DecidableEq

/-- One event handed to the transport: the anchor the reactor asked for, the sequences retained
when it looked, and the sequence at which the history then began anew. -/
structure Emission (E D : Type) where
  event : WatchStatusEvent E D
  anchor : ℕ
  retained : List ℕ
  rebase : ℕ

structure StatusSystem (E D : Type) where
  service : StatusService E D
  reactor : StatusReactor E D := {}
  stage : WatchStage := .absent
  /-- The poller is between its update of the history and the publication of it. -/
  publishPending : Bool := false
  /-- The hub has copied the reactor's callback and not called it yet. -/
  callbackPending : Bool := false
  /-- A wake holds the gate: it found the status available and has not looked at the history yet. -/
  wakeRunning : Bool := false
  log : List (Sample E D) := []
  observed : Option E := none
  rebase : ℕ := 0
  emissions : List (Emission E D) := []

namespace StatusSystem

def init (replayCapacity : ℕ) : StatusSystem E D :=
  { service := { replayCapacity } }

def events (s : StatusSystem E D) : List (WatchStatusEvent E D) :=
  s.emissions.map (·.event)

/-- The wake after `status_available()`: choose from the history, compose and start the write. -/
def wakeSelect (codec : DeltaCodec E D) (s : StatusSystem E D) : StatusSystem E D :=
  let r := s.reactor
  let selection := selectStatusHistory s.service.history r.anchor !r.initialWritten
  let s := { s with wakeRunning := false }
  match selection.entries.getLast? with
  | none =>
    let status : GrpcStatus := ⟨.unavailable, "LinuxCNC NML status snapshot is unavailable"⟩
    { s with reactor := r.requestFinish status }
  | some latest =>
    match r.composeEvent codec selection latest with
    | none => s
    | some event =>
      let r := { r with writingSample := some latest }
      match r.writeFinish.tryStartWrite with
      | none => { s with reactor := r }
      | some writeFinish =>
        { s with
          reactor := { r with writeFinish }
          emissions := s.emissions ++
            [⟨event, r.anchor, s.service.history.map (·.sequence), s.rebase⟩] }

def wakeBegin (s : StatusSystem E D) : StatusSystem E D :=
  -- the flag stands for the queued task as well, which is consumed either way
  if s.reactor.gate ≠ .opened then { s with reactor := { s.reactor with wakeScheduled := false } }
  else
    let r := { s.reactor with wakeScheduled := false }
    if r.writeFinish.writeInFlight ∨ r.writeFinish.terminationRequested then { s with reactor := r }
    else if !s.service.statusAvailable then
      let status : GrpcStatus := ⟨.unavailable, "LinuxCNC NML status snapshot is stale"⟩
      { s with reactor := r.requestFinish status }
    else { s with reactor := r, wakeRunning := true }

def observe (codec : StatusCodec N E D) (s : StatusSystem E D) (fresh : N) (forceRebase : Bool) :
    StatusSystem E D :=
  let (service, published) := s.service.observe codec fresh forceRebase
  let s := { s with service, observed := some (codec.encode fresh) }
  if published then
    { s with
      publishPending := true
      log := s.log ++ service.latest.toList
      rebase := if (service.latest.bind (·.deltaFromPrevious)).isNone then service.sequence
        else s.rebase }
  else s

end StatusSystem

inductive StatusAction (N : Type)
  /-- The poller. `recover` marks the status available before the first observation after a
  failure. -/
  | recover
  | observe (fresh : N) (forceRebase : Bool)
  | markUnavailable
  | publish
  | callback (accepted : Bool)
  /-- `WatchStatus`: the constructor of the reactor, in three steps. -/
  | watch (after : ℕ) (registered admitted : Bool)
  | subscribe
  | initialWake (accepted : Bool)
  | wakeBegin
  | wakeSelect
  | writeDone (ok accepted : Bool)
  | cancel
  | shutdown
  | onDone

namespace StatusSystem

/-- The poller publishes before it polls again, so its steps wait for an open publication; a step
that enters the gate waits for a running wake. -/
def step (codec : StatusCodec N E D) (s : StatusSystem E D) :
    StatusAction N → Option (StatusSystem E D)
  | .recover =>
    if s.publishPending ∨ s.callbackPending then none
    else some { s with service := { s.service with statusAvailable := true } }
  | .observe fresh forceRebase =>
    if s.publishPending ∨ s.callbackPending then none
    else some (s.observe codec fresh forceRebase)
  | .markUnavailable =>
    if s.publishPending ∨ s.callbackPending then none
    else some { s with
      service := { s.service with statusAvailable := false }
      publishPending := s.service.statusAvailable }
  | .publish =>
    if s.publishPending then
      some { s with publishPending := false, callbackPending := s.reactor.subscribed }
    else none
  | .callback accepted =>
    if s.callbackPending ∧ !s.wakeRunning then
      some { s with
        callbackPending := false
        reactor := s.reactor.invoke (·.scheduleWake accepted) }
    else none
  | .watch after registered admitted =>
    if s.stage ≠ .absent then none
    else
      let r : StatusReactor E D := { after }
      some { s with
        stage := if registered ∧ admitted then .constructing else .running
        reactor :=
          if !registered then r.shutdown
          else if !admitted then
            r.requestFinish ⟨.resourceExhausted, "stream admission limit reached"⟩
          else r }
  | .subscribe =>
    if s.stage = .constructing then
      some { s with stage := .subscribed, reactor := { s.reactor with subscribed := true } }
    else none
  | .initialWake accepted =>
    if s.stage = .subscribed then
      some { s with stage := .running, reactor := s.reactor.scheduleWake accepted }
    else none
  | .wakeBegin =>
    if s.reactor.wakeScheduled ∧ !s.wakeRunning then some s.wakeBegin else none
  | .wakeSelect => if s.wakeRunning then some (s.wakeSelect codec.toDeltaCodec) else none
  | .writeDone ok accepted =>
    if s.reactor.writeFinish.writeInFlight ∧ !s.wakeRunning then
      some { s with reactor := s.reactor.invoke (·.writeDone ok accepted) }
    else none
  | .cancel =>
    if s.stage ≠ .absent ∧ !s.wakeRunning then some { s with reactor := s.reactor.onCancel }
    else none
  | .shutdown =>
    if s.stage ≠ .absent ∧ !s.wakeRunning then some { s with reactor := s.reactor.shutdown }
    else none
  | .onDone =>
    if s.reactor.gate = .finishing ∧ !s.wakeRunning then
      some { s with reactor := { s.reactor with gate := .done, subscribed := false } }
    else none

/-- The stream is open and nothing is left to run for it. -/
def Idle (s : StatusSystem E D) : Prop :=
  s.stage = .running ∧ s.reactor.gate = .opened ∧
    s.reactor.writeFinish.terminationRequested = false ∧
    s.reactor.writeFinish.writeInFlight = false ∧ s.reactor.wakeScheduled = false ∧
    s.wakeRunning = false ∧ s.publishPending = false ∧ s.callbackPending = false ∧
    s.service.statusAvailable = true

end StatusSystem

end LinuxcncCtrl
