import Mathlib

/-! The pieces every streaming reactor of the server shares: the gRPC status it finishes with,
`DeferredWriteFinish`, which holds a requested finish back until the outstanding write is done, the
three states of the `LifetimeGate` in front of a reactor, and the queue of a `BoundedExecutor`. -/

namespace LinuxcncCtrl

inductive StatusCode
  | ok | cancelled | invalidArgument | deadlineExceeded | notFound | alreadyExists | unauthenticated
  | resourceExhausted | failedPrecondition | aborted | outOfRange | internal | unavailable
  deriving DecidableEq, Repr

structure GrpcStatus where
  code : StatusCode
  message : String
  deriving DecidableEq, Repr

inductive GateState
  | opened | finishing | done
  deriving DecidableEq, Repr

structure DeferredWriteFinish where
  writeInFlight : Bool := false
  finishStarted : Bool := false
  terminalStatus : Option GrpcStatus := none
  deriving DecidableEq, Repr

namespace DeferredWriteFinish

variable (w : DeferredWriteFinish)

def tryStartWrite : Option DeferredWriteFinish :=
  if w.writeInFlight ∨ w.terminalStatus.isSome ∨ w.finishStarted then none
  else some { w with writeInFlight := true }

def completeWrite (ok : Bool) : DeferredWriteFinish :=
  { w with
    writeInFlight := false
    terminalStatus :=
      if !ok ∧ w.terminalStatus.isNone then some ⟨.ok, ""⟩ else w.terminalStatus }

def requestFinish (status : GrpcStatus) : DeferredWriteFinish :=
  if w.terminalStatus.isNone ∧ !w.finishStarted then { w with terminalStatus := some status } else w

/-- The status to finish with, handed out once and only when no write is outstanding. -/
def takeFinishStatus : Option (GrpcStatus × DeferredWriteFinish) :=
  if w.writeInFlight ∨ w.finishStarted then none
  else w.terminalStatus.map (·, { w with finishStarted := true })

def terminationRequested : Bool :=
  w.terminalStatus.isSome || w.finishStarted

@[simp] theorem requestFinish_writeInFlight (status : GrpcStatus) :
    (w.requestFinish status).writeInFlight = w.writeInFlight := by
  unfold requestFinish
  split_ifs <;> rfl

@[simp] theorem requestFinish_finishStarted (status : GrpcStatus) :
    (w.requestFinish status).finishStarted = w.finishStarted := by
  unfold requestFinish
  split_ifs <;> rfl

@[simp] theorem requestFinish_terminationRequested (status : GrpcStatus) :
    (w.requestFinish status).terminationRequested = true := by
  unfold requestFinish terminationRequested
  split_ifs with h
  · rfl
  · cases hs : w.terminalStatus <;> simp_all

theorem takeFinishStatus_spec {w w' : DeferredWriteFinish} {status : GrpcStatus}
    (h : w.takeFinishStatus = some (status, w')) :
    w.writeInFlight = false ∧ w.terminalStatus = some status ∧
      w' = { w with finishStarted := true } := by
  unfold takeFinishStatus at h
  split_ifs at h with hw
  obtain ⟨taken, hs, htaken⟩ := Option.map_eq_some_iff.mp h
  cases htaken
  refine ⟨?_, hs, rfl⟩
  simpa using (not_or.mp hw).1

theorem tryStartWrite_eq_some {w w' : DeferredWriteFinish} :
    w.tryStartWrite = some w' ↔ w.writeInFlight = false ∧ w.terminationRequested = false ∧
      w' = { w with writeInFlight := true } := by
  unfold tryStartWrite terminationRequested
  cases hi : w.writeInFlight <;> cases hf : w.finishStarted <;> cases ht : w.terminalStatus <;>
    simp [eq_comm]

end DeferredWriteFinish

structure ExecutorItem (τ : Type) where
  task : τ
  cleanup : Bool
  deriving DecidableEq

/-- The queue of a `BoundedExecutor`, oldest item first. `refused` keeps, for the proofs, the cleanup
tasks that were not admitted. -/
structure BoundedExecutor (τ : Type) where
  capacity : ℕ
  cleanupReserve : ℕ
  queue : List (ExecutorItem τ) := []
  ordinaryQueued : ℕ := 0
  accepting : Bool := true
  stopping : Bool := false
  refused : List τ := []
  deriving DecidableEq

namespace BoundedExecutor

variable {τ : Type} (executor : BoundedExecutor τ)

/-- `submit_impl`; `none` is the result `false`. -/
def submitImpl (task : τ) (cleanup : Bool) : Option (BoundedExecutor τ) :=
  if executor.stopping = true ∨ cleanup = false ∧ executor.accepting = false then none
  else if executor.capacity ≤ executor.queue.length then none
  else if cleanup = false ∧ executor.capacity - executor.cleanupReserve ≤ executor.ordinaryQueued then
    none
  else
    some { executor with
      queue := executor.queue ++ [⟨task, cleanup⟩]
      ordinaryQueued := executor.ordinaryQueued + (!cleanup).toNat }

def submit (task : τ) : Option (BoundedExecutor τ) := executor.submitImpl task false

def submitCleanup (task : τ) : BoundedExecutor τ :=
  (executor.submitImpl task true).getD { executor with refused := executor.refused ++ [task] }

/-- A worker takes the item at a position; the workers of the executor take the first. -/
def take (index : ℕ) : Option (τ × BoundedExecutor τ) :=
  executor.queue[index]?.map fun item =>
    (item.task,
      { executor with
        queue := executor.queue.eraseIdx index
        ordinaryQueued := executor.ordinaryQueued - (!item.cleanup).toNat })

end BoundedExecutor

end LinuxcncCtrl
