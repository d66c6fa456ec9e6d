import LinuxcncCtrl.Lib.Runs

/-! `HalExecutor` of stdglue.py (patch 0013) and the responder on the other side of its pins. The requests of
one executor are numbered; a pin remembers, for the proofs, the number of the request its value was written
for. A responder may keep an identifier it has read for as long as it likes. It has to write state and result
for a request before it commits, but nothing else is asked of it. A poll reads the three pins one after
another, and the responder may act in between. -/

namespace LinuxcncCtrl

inductive ExecutorOutcome
  | succeeded | failed | cancelled | timedOut
  deriving DecidableEq

structure ExecutorResponse where
  outcome : ExecutorOutcome
  result : ℤ
  message : Option String := none
  deriving DecidableEq

def executorStateSucceeded : ℤ := 4

def executorStateFailed : ℤ := 5

def executorStateCancelled : ℤ := 6

def executorResponse (requestId : UInt32) (state result : ℤ) : ExecutorResponse :=
  if state = executorStateSucceeded then { outcome := .succeeded, result }
  else if state = executorStateFailed then { outcome := .failed, result }
  else if state = executorStateCancelled then { outcome := .cancelled, result }
  else
    { outcome := .failed
      result
      message := some ("response " ++ toString requestId.toNat ++ " used non-terminal state " ++
        toString state) }

/-- `writer` is the number of the request the value was written for, `none` if it was for no request. -/
structure HalPin (α : Type) where
  value : α
  writer : Option ℕ := none
  deriving DecidableEq

structure ResponderJob where
  id : UInt32
  writer : Option ℕ
  deriving DecidableEq

/-- How far a `_poll` is that has found its identifier. -/
inductive PollPhase
  | idle
  | matched (idWriter : Option ℕ)
  | stateRead (idWriter : Option ℕ) (state : HalPin ℤ)
  deriving DecidableEq

/-- What a `_poll` has returned for a request, with the requests that the pins it read were written for. -/
structure PolledResponse where
  request : ℕ
  response : ExecutorResponse
  idWriter : Option ℕ
  stateWriter : Option ℕ
  resultWriter : Option ℕ
  deriving DecidableEq

/-- `operation` is the operation that is not closed, with the number of its request. -/
structure HalExecutor where
  enabled : Bool := true
  active : Bool := false
  activeRequestId : UInt32 := 0
  nextRequestId : UInt32 := 1
  requestId : HalPin UInt32 := { value := 0 }
  opcode : ℤ := 0
  request : Bool := false
  cancel : Bool := false
  responseId : HalPin UInt32
  state : HalPin ℤ
  result : HalPin ℤ
  operation : Option (UInt32 × ℕ) := none
  requests : ℕ := 0
  jobs : List ResponderJob := []
  polling : PollPhase := .idle
  responses : List PolledResponse := []
  deriving DecidableEq

/-- `begin` without an exception, or one that the pins raise before or after the identifier is written; the
parts of a poll; the end of an operation; and what the responder does. -/
inductive HalExecutorAction
  | begin (opcode : ℤ)
  | beginFails (idWritten : Bool)
  | pollId
  | pollState
  | pollResult
  | finish (cancel : Bool)
  | read
  | writeState (job : Option ℕ) (state : ℤ)
  | writeResult (job : Option ℕ) (result : ℤ)
  | commit (job : ℕ)
  | forget (job : ℕ)
  deriving DecidableEq

namespace HalExecutor

variable (executor : HalExecutor)

def followingId (id : UInt32) : UInt32 := if id + 1 = 0 then 1 else id + 1

def begin (opcode : ℤ) : Option HalExecutor :=
  if executor.enabled = false ∨ executor.active = true then none
  else if opcode < -2147483648 ∨ 2147483647 < opcode then none
  else
    some { executor with
      nextRequestId := followingId executor.nextRequestId
      active := true
      activeRequestId := executor.nextRequestId
      cancel := false
      requestId := { value := executor.nextRequestId, writer := some (executor.requests + 1) }
      opcode
      request := true
      operation := some (executor.nextRequestId, executor.requests + 1)
      requests := executor.requests + 1 }

/-- An exception while the pins are written. The identifier is used up all the same. -/
def beginFails (idWritten : Bool) : Option HalExecutor :=
  if executor.enabled = false ∨ executor.active = true then none
  else
    some { executor with
      nextRequestId := followingId executor.nextRequestId
      requestId :=
        if idWritten then { value := executor.nextRequestId, writer := some (executor.requests + 1) }
        else executor.requestId
      cancel := false
      activeRequestId := 0
      requests := executor.requests + 1 }

def pollId : Option HalExecutor :=
  match executor.operation, executor.polling with
  | some (id, _), .idle =>
    if executor.responseId.value = id then
      some { executor with polling := .matched executor.responseId.writer }
    else some executor
  | _, _ => none

def pollState : Option HalExecutor :=
  match executor.polling with
  | .matched idWriter => some { executor with polling := .stateRead idWriter executor.state }
  | _ => none

def pollResult : Option HalExecutor :=
  match executor.operation, executor.polling with
  | some (id, request), .stateRead idWriter state =>
    some { executor with
      polling := .idle
      responses := executor.responses ++
        [{ request
           response := executorResponse id state.value executor.result.value
           idWriter
           stateWriter := state.writer
           resultWriter := executor.result.writer }] }
  | _, _ => none

def finish (cancel : Bool) : Option HalExecutor :=
  match executor.operation, executor.polling with
  | some (id, _), .idle =>
    let executor := { executor with operation := none }
    if executor.active = false ∨ executor.activeRequestId ≠ id then some executor
    else
      some { executor with
        cancel := executor.cancel || cancel
        request := false
        active := false
        activeRequestId := 0 }
  | _, _ => none

def jobWriter (job : Option ℕ) : Option ℕ :=
  (job.bind fun index => executor.jobs[index]?).bind ResponderJob.writer

def commit (job : ℕ) : Option HalExecutor :=
  match executor.jobs[job]? with
  | none => none
  | some job =>
    if executor.state.writer = job.writer ∧ executor.result.writer = job.writer then
      some { executor with responseId := { value := job.id, writer := job.writer } }
    else none

def step : HalExecutorAction → Option HalExecutor
  | .begin opcode => executor.begin opcode
  | .beginFails idWritten => executor.beginFails idWritten
  | .pollId => executor.pollId
  | .pollState => executor.pollState
  | .pollResult => executor.pollResult
  | .finish cancel => executor.finish cancel
  | .read =>
    some { executor with
      jobs := executor.jobs ++ [{ id := executor.requestId.value, writer := executor.requestId.writer }] }
  | .writeState job state =>
    some { executor with state := { value := state, writer := executor.jobWriter job } }
  | .writeResult job result =>
    some { executor with result := { value := result, writer := executor.jobWriter job } }
  | .commit job => executor.commit job
  | .forget job => some { executor with jobs := executor.jobs.eraseIdx job }

/-- The identifier of a request is neither on the response pin nor kept by the responder when the request
begins, and while the response to a request stands the responder writes state and result for no other. -/
def Fresh : HalExecutorAction → Prop
  | .begin _ => executor.responseId.value ≠ executor.nextRequestId ∧
    ∀ job ∈ executor.jobs, job.id ≠ executor.nextRequestId
  | .writeState job _ | .writeResult job _ => ∀ operation ∈ executor.operation,
    executor.responseId.value = operation.1 → executor.jobWriter job = some operation.2
  | _ => True

instance (action : HalExecutorAction) : Decidable (executor.Fresh action) := by
  cases action <;> dsimp only [Fresh] <;> infer_instance

/-- The component has been made, with whatever is on its input pins. -/
def start (responseId : UInt32) (state result : ℤ) : HalExecutor :=
  { responseId := { value := responseId }, state := { value := state }, result := { value := result } }

end HalExecutor

/-- A response that was committed for its request, with the state and result written for it. -/
def PolledResponse.Own (polled : PolledResponse) : Prop :=
  polled.idWriter = some polled.request ∧ polled.stateWriter = some polled.request ∧
    polled.resultWriter = some polled.request

end LinuxcncCtrl
