import LinuxcncCtrl.Lib.Runs
import LinuxcncCtrl.Spec.ScopeFrameQueue

/-! A scope WebSocket session over the frame queue: scope/telemetry.cc and the scope branches of
`Session` in telemetry_websocket_server.cc. The callbacks of the session run on its executor, one at a
time; `publish` runs on the poll thread and calls the listener after it has left the queue's mutex;
the listener posts a wake to the executor. `configure`, `stop` and a detach clear the queue. -/

namespace LinuxcncCtrl

structure ScopeTelemetry where
  owner : ScopeOwner
  registered : Bool := true
  attached : Bool := true
  listening : Bool := true
  closed : Bool := false

inductive ScopeSessionPhase
  | upgrading
  | accepting
  | streaming
  deriving DecidableEq

structure ScopeSession where
  phase : ScopeSessionPhase := .upgrading
  subscribed : Bool := false
  generation : ℕ := 0
  writing : Bool := false
  closing : Bool := false
  closed : Bool := false

/-- `notifying` counts the publishers that have still to call the listener, `posted` the wakes on the
executor; `written` keeps the frames handed to the socket. -/
structure ScopeStream (P : Type) where
  telemetry : ScopeTelemetry
  queue : ScopeFrameQueue P
  session : ScopeSession := {}
  notifying : ℕ := 0
  posted : ℕ := 0
  written : List (ScopeFrame P) := []

inductive ScopeStreamAction (P : Type)
  | publish (frame : ScopeFrame P)
  | notify
  | clear
  | accept
  | firstWake
  | wake
  | writeDone (ok : Bool)
  | readDone (ok : Bool)
  | fail
  | revoke

def ScopeStreamAction.isWake {P : Type} : ScopeStreamAction P → Bool
  | .wake => true
  | _ => false

namespace ScopeStream

variable {P : Type} (stream : ScopeStream P)

def next : Option (ScopeFrame P) × ScopeStream P :=
  if stream.telemetry.registered = false ∨ stream.telemetry.attached = false then (none, stream)
  else
    let taken := stream.queue.next stream.telemetry.owner
    (taken.1, { stream with queue := taken.2 })

def acknowledge (generation : ℕ) : Option (ScopeFrame P) × ScopeStream P :=
  if stream.telemetry.registered = false ∨ stream.telemetry.attached = false then (none, stream)
  else
    let taken := stream.queue.acknowledge stream.telemetry.owner generation
    (taken.1, { stream with queue := taken.2 })

def release : ScopeStream P :=
  if stream.telemetry.registered = false ∨ stream.telemetry.attached = false then stream
  else
    { stream with
      telemetry := { stream.telemetry with attached := false, listening := false }
      queue := stream.queue.clear stream.telemetry.owner }

def write (frame : ScopeFrame P) : ScopeStream P :=
  { stream with
    session := { stream.session with generation := frame.generation, writing := true }
    written := stream.written ++ [frame] }

def wakeScope : ScopeStream P :=
  if stream.session.closed ∨ stream.session.writing then stream
  else
    match stream.next with
    | (none, stream) => stream
    | (some frame, stream) => stream.write frame

def fail : ScopeStream P :=
  if stream.session.closed then stream
  else { stream with session := { stream.session with closed := true, subscribed := false } }.release

def onWrite (ok : Bool) : ScopeStream P :=
  let stream := { stream with session := { stream.session with writing := false } }
  if ok = false then stream.fail
  else if stream.session.closing then stream
  else
    match stream.acknowledge stream.session.generation with
    | (none, stream) => stream
    | (some frame, stream) => stream.write frame

/-- Data from the client closes the session; the close handshake ends in `fail`. -/
def onRead (ok : Bool) : ScopeStream P :=
  if ok = false then stream.fail
  else { stream with session := { stream.session with closing := true } }

def step : ScopeStreamAction P → Option (ScopeStream P)
  | .publish frame =>
    let published := stream.queue.publish frame
    some { stream with
      queue := published.2
      notifying := stream.notifying + (published.1 && stream.telemetry.listening).toNat }
  | .notify =>
    if stream.notifying = 0 then none
    else
      some { stream with
        notifying := stream.notifying - 1
        posted :=
          stream.posted + (stream.session.subscribed && !stream.telemetry.closed).toNat }
  | .clear => some { stream with queue := stream.queue.clear stream.telemetry.owner }
  | .accept =>
    if stream.session.phase ≠ .upgrading ∨ stream.session.closed then none
    else
      some { stream with
        session := { stream.session with
          phase := .accepting
          subscribed := stream.telemetry.registered && !stream.telemetry.closed } }
  | .firstWake =>
    if stream.session.phase ≠ .accepting then none
    else some { stream with session := { stream.session with phase := .streaming } }.wakeScope
  | .wake =>
    if stream.posted = 0 ∨ stream.session.phase ≠ .streaming then none
    else some { stream with posted := stream.posted - 1 }.wakeScope
  | .writeDone ok => if stream.session.writing then some (stream.onWrite ok) else none
  | .readDone ok =>
    if stream.session.phase = .streaming then some (stream.onRead ok) else none
  | .fail => if stream.session.phase = .accepting then none else some stream.fail
  | .revoke =>
    some { stream with
      telemetry := { stream.telemetry with registered := false, listening := false, closed := true } }

def Undelivered : Prop := stream.queue.inFlight.isSome = true ∧ stream.queue.delivered = false

instance : Decidable stream.Undelivered := inferInstanceAs (Decidable (_ ∧ _))

def Attached : Prop :=
  stream.telemetry.registered = true ∧ stream.telemetry.attached = true ∧
    stream.session.phase = .streaming ∧ stream.session.closed = false

/-- Nothing is under way that would hand out a frame. -/
def Idle : Prop :=
  stream.session.writing = false ∧ stream.posted = 0 ∧ stream.notifying = 0

/-- The session has claimed a registered controller whose owner has the queue. -/
structure Claimed : Prop where
  telemetry : stream.telemetry = { owner := stream.queue.owner }
  owner : stream.queue.owner ≠ []
  session : stream.session = {}
  notifying : stream.notifying = 0
  posted : stream.posted = 0

/-- A wake does not run while the session still writes and the queue has another frame for it. -/
def Heard (action : ScopeStreamAction P) : Prop :=
  action.isWake = true → stream.session.writing = true → ¬ stream.Undelivered

instance (action : ScopeStreamAction P) : Decidable (stream.Heard action) :=
  inferInstanceAs (Decidable (_ → _ → _))

end ScopeStream

end LinuxcncCtrl
