import LinuxcncCtrl.Spec.RemoteComponent

/-! `RemoteComponentRpc`: the reactors of the RunComponent streams, the HAL worker that runs their
requests on the registry, and the outbox in which a reactor collects messages while a write is in
flight. A stream is the position of its reactor.

Each callback of a reactor runs under its `LifetimeGate` and reaches shared state at most once, by one
submission, and is one step. The worker runs one task at a time: the registry's part is the first
step, and each call it then makes into a reactor is a step of its own. The clock, the HAL calls, the
random ids and the messages of the clients are inputs.

`written`, `offered`, `grants` and the executor's `refused` are there for the proofs: the messages a
stream has started to write, the messages offered to it, and the attachments given to streams. -/

namespace LinuxcncCtrl

structure OutboxEntry (F : Type) where
  message : HalComponentServerMessage F
  resumeRead : Bool

namespace ComponentOutbox

variable {F : Type}

def sameItem (left right : EncodedValue F) : Bool :=
  decide (left.kind = right.kind) && decide (left.name = right.name)

/-- One value of `merge_delta`: the first value of the same item is replaced. -/
def mergeValue : List (EncodedValue F) → EncodedValue F → List (EncodedValue F)
  | [], incoming => [incoming]
  | value :: values, incoming =>
    if sameItem value incoming then incoming :: values else value :: mergeValue values incoming

def mergeDelta (source target : List (EncodedValue F)) : List (EncodedValue F) :=
  source.foldl mergeValue target

def pushResponse (outbox : List (OutboxEntry F)) (message : HalComponentServerMessage F) :
    List (OutboxEntry F) :=
  outbox ++ [⟨message, true⟩]

/-- `push_delta`: a delta is merged into the last entry if that is a delta. -/
def pushDelta (outbox : List (OutboxEntry F)) (message : HalComponentServerMessage F) :
    List (OutboxEntry F) :=
  match message, outbox.getLast? with
  | .delta generation sequence values, some ⟨.delta _ _ queued, resumeRead⟩ =>
    outbox.dropLast ++ [⟨.delta generation sequence (mergeDelta values queued), resumeRead⟩]
  | message, _ => outbox ++ [⟨message, false⟩]

end ComponentOutbox

/-- A task of the HAL worker. `other` is any other work submitted to it. -/
inductive HalTask (F : Type)
  | consume (stream : ℕ) (proxyId : HalName) (generation : ℕ)
      (request : HalComponentClientMessage F)
  | detach (proxyId : HalName) (generation : ℕ)
  | sample (now : ℤ)
  | other

/-- `RemoteComponentRpc::Impl::Reactor`. `reading` says that a read was started and has not
completed; `destroyed` that `OnDone` has returned. -/
structure Reactor (F : Type) where
  gate : GateState := .opened
  destroyed : Bool := false
  activeResponse : Bool := false
  resumeReadWhenIdle : Bool := false
  receivedFirstMessage : Bool := false
  finishAfterResponses : Bool := false
  detachRequested : Bool := false
  proxyId : HalName := []
  generation : ℕ := 0
  reading : Bool := false
  outbox : List (OutboxEntry F) := []
  writeFinish : DeferredWriteFinish := {}
  written : List (HalComponentServerMessage F) := []
  offered : List (OutboxEntry F) := []

namespace Reactor

variable {F : Type} (reactor : Reactor F) (executor : BoundedExecutor (HalTask F))

/-- `none` when the stream cannot finish yet. -/
def finishIfReady : Option (Reactor F) :=
  reactor.writeFinish.takeFinishStatus.map fun taken =>
    { reactor with
      writeFinish := taken.2
      gate := if reactor.gate = .opened then .finishing else reactor.gate }

def requestFinish (status : GrpcStatus) : Reactor F :=
  let reactor :=
    { reactor with
      outbox := []
      resumeReadWhenIdle := false
      writeFinish := reactor.writeFinish.requestFinish status }
  reactor.finishIfReady.getD reactor

/-- The constructor. A stream that is not registered shuts down before it has a handle. -/
def construct (registered admitted : Bool) : Reactor F :=
  if registered = false then ({} : Reactor F).requestFinish ⟨.unavailable, "server shutting down"⟩
  else if admitted = false then
    ({} : Reactor F).requestFinish ⟨.resourceExhausted, "stream admission limit reached"⟩
  else { reading := true }

def startWrite (entry : OutboxEntry F) : Reactor F :=
  let reactor := { reactor with activeResponse := entry.resumeRead }
  match reactor.writeFinish.tryStartWrite with
  | none => reactor
  | some writeFinish =>
    { reactor with writeFinish, written := reactor.written ++ [entry.message] }

def offerDelta (message : HalComponentServerMessage F) : Reactor F :=
  if reactor.writeFinish.terminationRequested then reactor
  else
    let reactor := { reactor with offered := reactor.offered ++ [OutboxEntry.mk message false] }
    if reactor.writeFinish.writeInFlight then
      { reactor with outbox := ComponentOutbox.pushDelta reactor.outbox message }
    else reactor.startWrite ⟨message, false⟩

def offerResponse (message : HalComponentServerMessage F) : Reactor F :=
  if reactor.writeFinish.terminationRequested then reactor
  else
    let reactor := { reactor with offered := reactor.offered ++ [OutboxEntry.mk message true] }
    if reactor.writeFinish.writeInFlight then
      { reactor with outbox := ComponentOutbox.pushResponse reactor.outbox message }
    else reactor.startWrite ⟨message, true⟩

def detachTransport : Reactor F × BoundedExecutor (HalTask F) :=
  if reactor.detachRequested = true ∨ reactor.proxyId = [] then (reactor, executor)
  else
    ({ reactor with detachRequested := true },
      executor.submitCleanup (.detach reactor.proxyId reactor.generation))

/-- Detach the transport and finish, as `OnCancel`, `shutdown` and a failed read do. -/
def terminate (status : GrpcStatus) : Reactor F × BoundedExecutor (HalTask F) :=
  let (reactor, executor) := reactor.detachTransport executor
  (reactor.requestFinish status, executor)

/-- `read_done`; `none` is a failed read. -/
def readDone (stream : ℕ) (request : Option (HalComponentClientMessage F)) :
    Reactor F × BoundedExecutor (HalTask F) :=
  if reactor.writeFinish.terminationRequested then (reactor, executor)
  else
    match request with
    | none => reactor.terminate executor ⟨.ok, ""⟩
    | some request =>
      let reactor := { reactor with receivedFirstMessage := true }
      match executor.submit (.consume stream reactor.proxyId reactor.generation request) with
      | some executor => (reactor, executor)
      | none =>
        (reactor.requestFinish ⟨.resourceExhausted, "HAL runtime queue is full"⟩, executor)

def writeDone (ok : Bool) : Reactor F :=
  let reactor := { reactor with writeFinish := reactor.writeFinish.completeWrite ok }
  match reactor.finishIfReady with
  | some finished => finished
  | none =>
    if ok = false then reactor
    else
      let reactor :=
        { reactor with
          resumeReadWhenIdle := reactor.activeResponse || reactor.resumeReadWhenIdle }
      match reactor.outbox with
      | entry :: rest => { reactor with outbox := rest }.startWrite entry
      | [] =>
        if reactor.finishAfterResponses then reactor.requestFinish ⟨.ok, ""⟩
        else if reactor.resumeReadWhenIdle then
          { reactor with resumeReadWhenIdle := false, reading := true }
        else reactor

def tick (expired : Bool) : Reactor F :=
  if reactor.receivedFirstMessage = false ∧ expired = true then
    reactor.requestFinish
      ⟨.deadlineExceeded, "first component message was not received within 5 seconds"⟩
  else reactor

def heartbeatTimeout (generation : ℕ) : Reactor F :=
  if reactor.generation = generation then
    { reactor with detachRequested := true }.requestFinish
      ⟨.deadlineExceeded, "component heartbeat timed out"⟩
  else reactor

def setHandle (result : RemoteComponentResult F) : Reactor F :=
  if result.proxyId = [] then reactor
  else { reactor with proxyId := result.proxyId, generation := result.generation }

def deliver (result : RemoteComponentResult F) : Reactor F × BoundedExecutor (HalTask F) :=
  if result.status.code ≠ .ok then reactor.terminate executor result.status
  else
    let reactor := reactor.setHandle result
    match result.response with
    | some response =>
      let reactor := reactor.offerResponse response
      if result.close then
        ({ reactor with detachRequested := true, finishAfterResponses := true }, executor)
      else (reactor, executor)
    | none =>
      if result.close then (reactor.requestFinish ⟨.ok, ""⟩, executor)
      else if reactor.writeFinish.terminationRequested then (reactor, executor)
      else ({ reactor with reading := true }, executor)

end Reactor

inductive WorkerCall (F : Type)
  | deliver (stream : ℕ) (result : RemoteComponentResult F)
  | callback (call : CallbackCall F ℕ)

structure Grant where
  stream : ℕ
  id : HalName
  incarnation : ℕ
  generation : ℕ
  deriving DecidableEq

structure RpcSystem (F : Type) where
  registry : Registry F ℕ
  executor : BoundedExecutor (HalTask F)
  reactors : List (Reactor F) := []
  worker : List (WorkerCall F) := []
  grants : List Grant := []

inductive RpcAction (F : Type)
  | openStream (registered admitted : Bool)
  | readDone (stream : ℕ) (request : Option (HalComponentClientMessage F))
  | writeDone (stream : ℕ) (ok : Bool)
  | cancel (stream : ℕ)
  | shutdown (stream : ℕ)
  | tick (stream : ℕ) (expired : Bool)
  | gateDetach (stream : ℕ)
  | done (stream : ℕ)
  | submitSample (now : ℤ)
  | submitOther
  | take (index : ℕ) (inputs : RegistryInputs F)
  | call

namespace RpcSystem

variable {F : Type}

def setReactor (system : RpcSystem F) (stream : ℕ)
    (updated : Reactor F × BoundedExecutor (HalTask F)) : RpcSystem F :=
  { system with reactors := system.reactors.set stream updated.1, executor := updated.2 }

/-- `LifetimeGate::invoke`: `none` when the gate is closed. -/
def invoke (system : RpcSystem F) (stream : ℕ)
    (function : Reactor F → BoundedExecutor (HalTask F) →
      Reactor F × BoundedExecutor (HalTask F)) : Option (RpcSystem F) :=
  match system.reactors[stream]? with
  | none => none
  | some reactor =>
    if reactor.gate = .opened then some (system.setReactor stream (function reactor system.executor))
    else none

def granted (registry : Registry F ℕ) (stream : ℕ) (result : RemoteComponentResult F) :
    List Grant :=
  match result.response with
  | some (.attached message) =>
    ((registry.proxies.lookup message.proxyId).map fun proxy =>
      { stream
        id := message.proxyId
        incarnation := proxy.incarnation
        generation := message.generation }).toList
  | _ => []

def runTask [BEq F] (system : RpcSystem F) (config : RegistryConfig) (inputs : RegistryInputs F) :
    HalTask F → RpcSystem F
  | .consume stream proxyId generation request =>
    let consumed := system.registry.consume config inputs proxyId generation stream request
    { system with
      registry := consumed.1
      worker := [.deliver stream consumed.2]
      grants := system.grants ++ granted consumed.1 stream consumed.2 }
  | .detach proxyId generation =>
    { system with registry := system.registry.detach proxyId generation }
  | .sample now =>
    let sampled := system.registry.sample config inputs.calls now
    { system with registry := sampled.1, worker := sampled.2.map .callback }
  | .other => system

/-- A call of the worker into a reactor. A result that is not delivered is detached at once. -/
def runCall (system : RpcSystem F) : WorkerCall F → RpcSystem F
  | .deliver stream result =>
    match system.invoke stream fun reactor executor => reactor.deliver executor result with
    | some delivered => delivered
    | none =>
      if result.proxyId = [] then system
      else
        { system with registry := system.registry.detach result.proxyId result.generation }
  | .callback (.offerDelta stream message) =>
    (system.invoke stream fun reactor executor => (reactor.offerDelta message, executor)).getD system
  | .callback (.heartbeatTimeout stream generation) =>
    (system.invoke stream fun reactor executor =>
      (reactor.heartbeatTimeout generation, executor)).getD system

/-- One step. The drawing loop of `create` ends with an id that no retained proxy has, and an id is
never empty. A callback of a reactor comes only while its stream has the operation outstanding. -/
def step [BEq F] (config : RegistryConfig) (system : RpcSystem F) :
    RpcAction F → Option (RpcSystem F)
  | .openStream registered admitted =>
    some { system with reactors := system.reactors ++ [.construct registered admitted] }
  | .readDone stream request =>
    match system.reactors[stream]? with
    | none => none
    | some reactor =>
      if reactor.reading = false ∨ reactor.destroyed = true then none
      else
        let system := system.setReactor stream ({ reactor with reading := false }, system.executor)
        some ((system.invoke stream fun reactor executor =>
          reactor.readDone executor stream request).getD system)
  | .writeDone stream ok =>
    match system.reactors[stream]? with
    | none => none
    | some reactor =>
      if reactor.writeFinish.writeInFlight = false then none
      else system.invoke stream fun reactor executor => (reactor.writeDone ok, executor)
  | .cancel stream =>
    system.invoke stream fun reactor executor =>
      reactor.terminate executor ⟨.cancelled, "component session cancelled"⟩
  | .shutdown stream =>
    system.invoke stream fun reactor executor =>
      reactor.terminate executor ⟨.unavailable, "server shutting down"⟩
  | .tick stream expired =>
    system.invoke stream fun reactor executor => (reactor.tick expired, executor)
  | .gateDetach stream =>
    match system.reactors[stream]? with
    | none => none
    | some reactor =>
      if reactor.gate = .finishing then
        some (system.setReactor stream ({ reactor with gate := .done }, system.executor))
      else none
  | .done stream =>
    match system.reactors[stream]? with
    | none => none
    | some reactor =>
      if reactor.gate = .done ∧ reactor.destroyed = false then
        let (reactor, executor) := reactor.detachTransport system.executor
        some (system.setReactor stream ({ reactor with destroyed := true }, executor))
      else none
  | .submitSample now =>
    (system.executor.submit (.sample now)).map fun executor => { system with executor }
  | .submitOther => (system.executor.submit .other).map fun executor => { system with executor }
  | .take index inputs =>
    if system.worker ≠ [] ∨ inputs.proxyId = [] ∨ inputs.proxyId ∈ system.registry.proxies then none
    else
      (system.executor.take index).map fun taken =>
        { system with executor := taken.2 }.runTask config inputs taken.1
  | .call =>
    match system.worker with
    | [] => none
    | call :: rest => some ({ system with worker := rest }.runCall call)

/-- The server before its first stream, with the HAL worker and the component admission that `main.cc`
sizes from the limit on remote components. -/
def start (maxRemoteComponents : ℕ) (slab : HalAllocationSlab) : RpcSystem F :=
  { registry := { admission := { capacity := maxRemoteComponents }, slab }
    executor :=
      { capacity := max 128 (maxRemoteComponents + 65)
        cleanupReserve := maxRemoteComponents + 1 } }

/-- The attachment belongs to a stream that has not requested its detach. -/
def Held (system : RpcSystem F) (id : HalName) (generation : ℕ) : Prop :=
  ∃ (stream : ℕ) (reactor : Reactor F), system.reactors[stream]? = some reactor ∧
    reactor.destroyed = false ∧ reactor.detachRequested = false ∧
      (reactor.proxyId = id ∧ reactor.generation = generation ∨
        ∃ result, .deliver stream result ∈ system.worker ∧ result.proxyId = id ∧
          result.generation = generation)

/-- A detach is queued, or the worker holds a result that it cannot deliver and is about to detach. -/
def DetachPending (system : RpcSystem F) (id : HalName) (generation : ℕ) : Prop :=
  (∃ item ∈ system.executor.queue, item.task = .detach id generation) ∨
    ∃ (stream : ℕ) (result : RemoteComponentResult F) (reactor : Reactor F),
      .deliver stream result ∈ system.worker ∧ result.proxyId = id ∧
        result.generation = generation ∧ system.reactors[stream]? = some reactor ∧
        reactor.gate ≠ .opened

/-- Every attachment has somebody who will end it. -/
def NoOrphan (system : RpcSystem F) : Prop :=
  ∀ id generation proxy, system.registry.Current id generation proxy →
    system.Held id generation ∨ system.DetachPending id generation

end RpcSystem

def RpcAction.taken {F : Type} : RpcAction F → Option ℕ
  | .take index _ => some index
  | _ => none

/-- The one worker takes its tasks in the order they were submitted. -/
def RpcAction.Fifo {F : Type} (action : RpcAction F) : Prop :=
  ∀ index ∈ action.taken, index = 0

instance {F : Type} (action : RpcAction F) : Decidable action.Fifo :=
  inferInstanceAs (Decidable (∀ index ∈ action.taken, index = 0))

end LinuxcncCtrl
