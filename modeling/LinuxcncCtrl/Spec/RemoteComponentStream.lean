import LinuxcncCtrl.Lib.Progress
import LinuxcncCtrl.Spec.RemoteClient

/-! One reactor of a RunComponent stream and the HAL worker, with any results of its requests and any deltas
offered to it. The reactor is number 0; tasks of others stand in the executor as `other`. A callback that
calls `StartRead` leaves `reading` set in the reactor; here it is counted in `reads` and taken back, so
that a second read while one is outstanding would be seen.

`waitingSince` and `late` are there for the proofs. The first is the number of deltas that had been offered
when the write of a response completed, until the next `StartRead`; the second counts the messages
written since then that were offered after it. -/

namespace LinuxcncCtrl

variable {F : Type}

def HalTask.isConsume : HalTask F → Bool
  | .consume _ _ _ _ => true
  | _ => false

/-- A message with a sequence above the number, or a response. -/
def HalComponentServerMessage.after (offered : ℕ) : HalComponentServerMessage F → Bool
  | .delta _ sequence _ => decide (offered < sequence)
  | _ => true

structure ComponentStream (F : Type) where
  reactor : Reactor F
  executor : BoundedExecutor (HalTask F)
  running : Option (HalTask F) := none
  reads : ℕ := 0
  serverSequence : ℕ := 0
  waitingSince : Option ℕ := none
  late : ℕ := 0

inductive ComponentStreamAction (F : Type)
  | readDone (request : Option (HalComponentClientMessage F))
  | submitOther
  | take (index : ℕ)
  | taskDone (result : RemoteComponentResult F)
  | offerDelta (generation : ℕ) (values : List (EncodedValue F))
  | writeDone (ok : Bool)
  | terminate (status : GrpcStatus)
  | tick (expired : Bool)
  | heartbeatTimeout (generation : ℕ)

namespace ComponentStream

def start (registered admitted : Bool) (capacity cleanupReserve : ℕ) : ComponentStream F :=
  { reactor := { (Reactor.construct registered admitted : Reactor F) with reading := false }
    executor := { capacity, cleanupReserve }
    reads := (Reactor.construct registered admitted : Reactor F).reading.toNat }

variable (stream : ComponentStream F)

/-- The messages started since `before` that were offered after the response was written. -/
def lateWrites (before after : Reactor F) : ℕ :=
  match stream.waitingSince with
  | none => 0
  | some offered => (after.written.drop before.written.length).countP (HalComponentServerMessage.after offered)

def record (updated : Reactor F × BoundedExecutor (HalTask F)) : ComponentStream F :=
  { stream with
    reactor := { updated.1 with reading := false }
    executor := updated.2
    reads := stream.reads + updated.1.reading.toNat
    waitingSince := if updated.1.reading then none else stream.waitingSince
    late := stream.late + stream.lateWrites stream.reactor updated.1 }

def invoke (function : Reactor F → BoundedExecutor (HalTask F) → Reactor F × BoundedExecutor (HalTask F)) :
    ComponentStream F :=
  if stream.reactor.gate = .opened then stream.record (function stream.reactor stream.executor)
  else stream

def completed : ComponentStream F :=
  if stream.reactor.activeResponse then
    { stream with waitingSince := some stream.serverSequence, late := 0 }
  else stream

/-- One step. A completion comes only for an operation that is outstanding. The response of the registry
is never a delta. -/
def step : ComponentStreamAction F → Option (ComponentStream F)
  | .readDone request =>
    if stream.reads = 0 then none
    else
      some ({ stream with reads := stream.reads - 1 }.invoke fun reactor executor =>
        reactor.readDone executor 0 request)
  | .submitOther => (stream.executor.submit .other).map fun executor => { stream with executor }
  | .take index =>
    if stream.running.isSome then none
    else
      (stream.executor.take index).map fun taken =>
        { stream with executor := taken.2, running := some taken.1 }
  | .taskDone result =>
    match stream.running with
    | none => none
    | some task =>
      if result.response.any HalComponentServerMessage.isDelta then none
      else if task.isConsume then
        some ({ stream with running := none }.invoke fun reactor executor =>
          reactor.deliver executor result)
      else some { stream with running := none }
  | .offerDelta generation values =>
    some ({ stream with serverSequence := stream.serverSequence + 1 }.invoke fun reactor executor =>
      (reactor.offerDelta (.delta generation (stream.serverSequence + 1) values), executor))
  | .writeDone ok =>
    if stream.reactor.writeFinish.writeInFlight = false then none
    else some (stream.completed.invoke fun reactor executor => (reactor.writeDone ok, executor))
  | .terminate status => some (stream.invoke fun reactor executor => reactor.terminate executor status)
  | .tick expired => some (stream.invoke fun reactor executor => (reactor.tick expired, executor))
  | .heartbeatTimeout generation =>
    some (stream.invoke fun reactor executor => (reactor.heartbeatTimeout generation, executor))

/-- No termination was requested and no close was accepted. -/
def Going : Prop :=
  stream.reactor.writeFinish.terminationRequested = false ∧ stream.reactor.finishAfterResponses = false

def consuming : ℕ :=
  stream.executor.queue.countP (fun item => item.task.isConsume) +
    (stream.running.any HalTask.isConsume).toNat

def responses : ℕ :=
  stream.reactor.outbox.countP OutboxEntry.resumeRead +
    (stream.reactor.writeFinish.writeInFlight && stream.reactor.activeResponse).toNat

def resuming : ℕ :=
  (stream.reactor.writeFinish.writeInFlight && stream.reactor.resumeReadWhenIdle).toNat

def writingLate : Bool :=
  match stream.waitingSince, stream.reactor.written.getLast? with
  | some offered, some message => message.after offered
  | _, _ => false

/-- No delta is offered while a message offered after the response is being written. -/
def OffersBetween : ComponentStreamAction F → Prop
  | .offerDelta _ _ => stream.writingLate = false
  | _ => True

instance (action : ComponentStreamAction F) : Decidable (stream.OffersBetween action) := by
  cases action <;> dsimp only [OffersBetween] <;> infer_instance

end ComponentStream

/-- The completion of an operation that was outstanding, with success. -/
def ComponentStreamAction.Completes : ComponentStreamAction F → Prop
  | .take _ => True
  | .taskDone result => result.status.code = .ok ∧ result.close = false
  | .writeDone ok => ok = true
  | _ => False

end LinuxcncCtrl
