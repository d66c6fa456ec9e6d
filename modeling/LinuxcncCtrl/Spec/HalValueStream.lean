import LinuxcncCtrl.Lib.KeyedDelta
import LinuxcncCtrl.Lib.Runs
import LinuxcncCtrl.Spec.HalValueTelemetry

/-! A HAL value WebSocket session over its subscription: the HAL branches of `Session` in
telemetry_websocket_server.cc. The callbacks of the session run on its executor, one at a time. The
HAL worker changes the subscription under its mutex and calls the listeners after it has left it; the
listener of the session posts a wake to the executor. The client's side is the map of slots that the
frames describe. -/

namespace LinuxcncCtrl

open Lib

structure HalValueFrame (V : Type) where
  replacement : Bool
  revision : ℕ
  sequence : ℕ
  entries : List (UInt32 × Option V)

namespace HalTelemetrySnapshot

variable {V : Type} (snapshot : HalTelemetrySnapshot V)

def entries : List (UInt32 × Option V) :=
  (snapshot.bindings.zip snapshot.values).map fun bound => (bound.1.slot, bound.2)

def encodeHalFrame (replacement : Bool) (changed : List ℕ) : HalValueFrame V :=
  { replacement
    revision := snapshot.revision
    sequence := snapshot.sequence
    entries :=
      if replacement then snapshot.entries
      else changed.filterMap fun index => snapshot.entries[index]? }

/-- The map has the snapshot's value for each binding, and no other slot. -/
def Matches (map : UInt32 → Option (Option V)) : Prop :=
  (∀ bound ∈ snapshot.bindings.zip snapshot.values, map bound.1.slot = some bound.2) ∧
    ∀ slot ∉ snapshot.bindings.map HalTelemetryBinding.slot, map slot = none

end HalTelemetrySnapshot

/-- The client's slots after a frame; a slot without a value is unavailable. -/
def HalValueFrame.apply {V : Type} (map : UInt32 → Option (Option V)) (frame : HalValueFrame V) :
    UInt32 → Option (Option V) :=
  putAll Prod.fst Prod.snd frame.entries (if frame.replacement then fun _ => none else map)

def clientSlots {V : Type} (frames : List (HalValueFrame V)) : UInt32 → Option (Option V) :=
  frames.foldl HalValueFrame.apply fun _ => none

inductive HalSessionPhase
  | upgrading
  | accepting
  | streaming
  deriving DecidableEq

structure HalSession (V : Type) where
  phase : HalSessionPhase := .upgrading
  subscribed : Bool := false
  writeSnapshot : Option (HalTelemetrySnapshot V) := none
  values : List (Option V) := []
  revision : ℕ := 0
  dirty : Bool := false
  writing : Bool := false
  closing : Bool := false
  closed : Bool := false

/-- `subscription` is `none` once it is erased. `notifying` counts the changes whose listeners have
still to be called, `posted` the wakes on the executor; `frames` keeps what was handed to the socket
and the snapshot each frame was encoded from. -/
structure HalValueStream (V : Type) where
  subscription : Option (HalTelemetryState V)
  session : HalSession V := {}
  notifying : ℕ := 0
  posted : ℕ := 0
  frames : List (HalValueFrame V × HalTelemetrySnapshot V) := []

inductive HalValueAction (V : Type)
  | update (request : HalValueRequest)
  | publish (revision : ℕ) (values : List (Option V))
  | erase
  | notify
  | accept
  | firstSend
  | wake
  | writeDone (ok : Bool)
  | readDone (ok : Bool)
  | fail

def HalSession.changed {V : Type} [DecidableEq V] (session : HalSession V)
    (snapshot : HalTelemetrySnapshot V) : List ℕ :=
  (List.range snapshot.values.length).filter fun index =>
    decide (session.values.length ≤ index ∨ snapshot.values[index]? ≠ session.values[index]?)

namespace HalValueStream

section

variable {V : Type} (stream : HalValueStream V)

/-- `fail` clears the id, under which no subscription is found any more. -/
def snapshot : Option (HalTelemetrySnapshot V) :=
  if stream.session.closed then none else stream.subscription.map HalTelemetryState.snapshot

def fail : HalValueStream V :=
  if stream.session.closed then stream
  else { stream with session := { stream.session with closed := true, subscribed := false } }

def write (snapshot : HalTelemetrySnapshot V) (frame : HalValueFrame V) : HalValueStream V :=
  { stream with
    session := { stream.session with writeSnapshot := some snapshot, writing := true }
    frames := stream.frames ++ [(frame, snapshot)] }

/-- What was written is what the next frame is compared with. -/
def settle : HalValueStream V :=
  match stream.session.writeSnapshot with
  | none => stream
  | some snapshot =>
    { stream with
      session := { stream.session with
        revision := snapshot.revision
        values := snapshot.values
        writeSnapshot := none } }

/-- Data from the client closes the session; the close handshake ends in `fail`. -/
def onRead (ok : Bool) : HalValueStream V :=
  if ok = false then stream.fail
  else { stream with session := { stream.session with closing := true } }

def Attached : Prop :=
  stream.session.phase = .streaming ∧ stream.session.closed = false ∧
    stream.session.closing = false

def Idle : Prop :=
  stream.session.writing = false ∧ stream.posted = 0 ∧ stream.notifying = 0

def sent : List (HalValueFrame V) := stream.frames.map Prod.fst

def claimed (state : HalTelemetryState V) : HalValueStream V := { subscription := some state }

end

variable {V : Type} [DecidableEq V] (stream : HalValueStream V)

def sendHal : HalValueStream V :=
  match stream.snapshot with
  | none => stream.fail
  | some snapshot =>
    if snapshot.sampled = false then stream
    else if stream.session.revision ≠ snapshot.revision then
      stream.write snapshot (snapshot.encodeHalFrame true [])
    else
      let changed := stream.session.changed snapshot
      if changed = [] then stream
      else stream.write snapshot (snapshot.encodeHalFrame false changed)

def wakeHal : HalValueStream V :=
  if stream.session.closed then stream
  else if stream.session.writing then
    { stream with session := { stream.session with dirty := true } }
  else stream.sendHal

def onWrite (ok : Bool) : HalValueStream V :=
  let stream := { stream with session := { stream.session with writing := false } }
  if ok = false then stream.fail
  else
    let stream := stream.settle
    if stream.session.closing then stream
    else if stream.session.dirty then
      { stream with session := { stream.session with dirty := false } }.sendHal
    else stream

def step : HalValueAction V → Option (HalValueStream V)
  | .update request =>
    match stream.subscription with
    | none => some stream
    | some state =>
      match state.doUpdateValueSubscription request with
      | .error _ => some stream
      | .ok state =>
        some { stream with subscription := some state, notifying := stream.notifying + 1 }
  | .publish revision values =>
    match stream.subscription.bind fun state => state.publish revision values with
    | none => some stream
    | some state =>
      some { stream with subscription := some state, notifying := stream.notifying + 1 }
  | .erase => some { stream with subscription := none, notifying := stream.notifying + 1 }
  | .notify =>
    if stream.notifying = 0 then none
    else
      some { stream with
        notifying := stream.notifying - 1
        posted := stream.posted + stream.session.subscribed.toNat }
  | .accept =>
    if stream.session.phase ≠ .upgrading then none
    else
      some { stream with
        session := { stream.session with
          phase := .accepting
          subscribed := !stream.session.closed && stream.subscription.isSome } }
  | .firstSend =>
    if stream.session.phase ≠ .accepting then none
    else some { stream with session := { stream.session with phase := .streaming } }.sendHal
  | .wake =>
    if stream.posted = 0 ∨ stream.session.phase ≠ .streaming then none
    else some { stream with posted := stream.posted - 1 }.wakeHal
  | .writeDone ok => if stream.session.writing then some (stream.onWrite ok) else none
  | .readDone ok =>
    if stream.session.phase = .streaming then some (stream.onRead ok) else none
  | .fail => if stream.session.phase = .accepting then none else some stream.fail

end HalValueStream

def HalTelemetryState.fresh {V : Type} (state : HalTelemetryState V)
    (items : List HalTelemetryResolvedItem) : ℕ :=
  items.countP fun item => (state.prior item).isNone

def HalTelemetryState.newSlots {V : Type} (state : HalTelemetryState V) (request : HalValueRequest) :
    ℕ :=
  match resolveSubscriptionItems request.types state.bindings request.items with
  | .error _ => 0
  | .ok items => state.fresh items

/-- The slots of an update are still free: the subscription has taken fewer than 2^32 with them. -/
def HalValueStream.SlotsLeft {V : Type} (stream : HalValueStream V) : HalValueAction V → Prop
  | .update request =>
    ∀ state ∈ stream.subscription, state.nextSlot.toNat + state.newSlots request < 2 ^ 32
  | _ => True

instance {V : Type} (stream : HalValueStream V) (action : HalValueAction V) :
    Decidable (stream.SlotsLeft action) := by
  cases action <;> dsimp only [HalValueStream.SlotsLeft] <;> infer_instance

end LinuxcncCtrl
