import LinuxcncCtrl.Lib.Runs
import LinuxcncCtrl.Spec.CallbackRuntime

/-! A `BoundedExecutor` with its threads: callback_runtime.cc. A critical section is one step. Workers and
callers of `drain` wait on one condition variable, and a thread that waits goes on only when it has been
notified. A submitter and `shutdown` notify in a step of their own, after they have left the mutex. -/

namespace LinuxcncCtrl

open Lib

/-- Where a thread of the executor is: about to take the mutex, in the wait set, with an item, or gone. -/
inductive WorkerPhase (τ : Type)
  | ready
  | blocked
  | running (item : ExecutorItem τ)
  | exited
  deriving DecidableEq

namespace WorkerPhase

variable {τ : Type}

def isBlocked : WorkerPhase τ → Bool
  | blocked => true
  | _ => false

def wake : WorkerPhase τ → WorkerPhase τ
  | blocked => ready
  | phase => phase

def item : WorkerPhase τ → Option (ExecutorItem τ)
  | running item => some item
  | _ => none

end WorkerPhase

inductive DrainPhase
  | ready
  | blocked
  | returned
  deriving DecidableEq

namespace DrainPhase

def isBlocked : DrainPhase → Bool
  | blocked => true
  | _ => false

def wake : DrainPhase → DrainPhase
  | blocked => ready
  | phase => phase

end DrainPhase

inductive Waiter
  | worker (index : ℕ)
  | drainer (index : ℕ)
  deriving DecidableEq

/-- `notifying` counts the submitters that have still to call `notify_one`; `notifyingAll` is set while
`shutdown` has still to call `notify_all`. `accepted`, `started` and `finished` keep the items in the order
in which that happened to them. -/
structure ExecutorPool (τ : Type) where
  executor : BoundedExecutor τ
  draining : Bool := true
  active : ℕ := 0
  workers : List (WorkerPhase τ)
  drainers : List DrainPhase := []
  notifying : ℕ := 0
  notifyingAll : Bool := false
  accepted : List (ExecutorItem τ) := []
  started : List (ExecutorItem τ) := []
  finished : List (ExecutorItem τ) := []
  deriving DecidableEq

/-- A `task` that is `none` is an empty `std::function`; a `waiter` that is `none` says that nobody was
there to be notified. -/
inductive PoolAction (τ : Type)
  | submit (task : Option τ) (cleanup : Bool)
  | notifyOne (waiter : Option Waiter)
  | stopAdmission
  | drain
  | drainer (index : ℕ)
  | shutdown (drain : Bool)
  | notifyAll
  | worker (index : ℕ)
  deriving DecidableEq

namespace ExecutorPool

variable {τ : Type} (pool : ExecutorPool τ)

/-- The constructor; `none` when it throws. -/
def create (threads capacity cleanupReserve : ℕ) : Option (ExecutorPool τ) :=
  if threads = 0 ∨ capacity = 0 ∨ capacity < cleanupReserve then none
  else some { executor := { capacity, cleanupReserve }, workers := List.replicate threads .ready }

/-- The critical section of `submit_impl`, and what it returns. -/
def submitImpl (task : Option τ) (cleanup : Bool) : ExecutorPool τ × Bool :=
  match task with
  | none => (pool, false)
  | some task =>
    match pool.executor.submitImpl task cleanup with
    | none => (pool, false)
    | some executor =>
      ({ pool with
        executor
        notifying := pool.notifying + 1
        accepted := pool.accepted ++ [⟨task, cleanup⟩] }, true)

def noWaiter : Bool :=
  pool.workers.all (fun worker => !worker.isBlocked) && pool.drainers.all fun drainer => !drainer.isBlocked

/-- `notify_one` of a submitter. Any thread in the wait set may be the one. -/
def notifyOne (waiter : Option Waiter) : Option (ExecutorPool τ) :=
  if pool.notifying = 0 then none
  else
    let pool := { pool with notifying := pool.notifying - 1 }
    match waiter with
    | none => if pool.noWaiter then some pool else none
    | some (.worker index) =>
      match pool.workers[index]? with
      | some .blocked => some { pool with workers := pool.workers.set index .ready }
      | _ => none
    | some (.drainer index) =>
      match pool.drainers[index]? with
      | some .blocked => some { pool with drainers := pool.drainers.set index .ready }
      | _ => none

def notifyAll : ExecutorPool τ :=
  { pool with
    workers := pool.workers.map WorkerPhase.wake
    drainers := pool.drainers.map DrainPhase.wake }

def stopAdmission : ExecutorPool τ :=
  { pool with executor := { pool.executor with accepting := false } }

def drainer (index : ℕ) : Option (ExecutorPool τ) :=
  match pool.drainers[index]? with
  | some .ready =>
    if pool.executor.queue.isEmpty ∧ pool.active = 0 then
      some { pool with drainers := pool.drainers.set index .returned }
    else some { pool with drainers := pool.drainers.set index .blocked }
  | _ => none

def shutdown (drain : Bool) : ExecutorPool τ :=
  if pool.executor.stopping then pool
  else
    let pool :=
      { pool with
        executor := { pool.executor with accepting := false, stopping := true }
        draining := drain
        notifyingAll := true }
    if drain then pool
    else { pool with executor := { pool.executor with queue := [], ordinaryQueued := 0 } }

/-- The first critical section of `run`: a worker waits, exits, or takes the item at the front. -/
def takeItem (index : ℕ) : ExecutorPool τ :=
  match pool.executor.queue.head?, pool.executor.take 0 with
  | some item, some (_, executor) =>
    { pool with
      executor
      active := pool.active + 1
      workers := pool.workers.set index (.running item)
      started := pool.started ++ [item] }
  | _, _ =>
    if pool.executor.stopping then { pool with workers := pool.workers.set index .exited }
    else { pool with workers := pool.workers.set index .blocked }

/-- The second critical section of `run`, after the task. -/
def finishItem (index : ℕ) (item : ExecutorItem τ) : ExecutorPool τ :=
  let pool :=
    { pool with
      active := pool.active - 1
      workers := pool.workers.set index .ready
      finished := pool.finished ++ [item] }
  let pool := if pool.executor.queue.isEmpty ∧ pool.active = 0 then pool.notifyAll else pool
  if pool.executor.stopping ∧ (pool.draining = false ∨ pool.executor.queue.isEmpty) then
    pool.notifyAll
  else pool

def step : PoolAction τ → Option (ExecutorPool τ)
  | .submit task cleanup => some (pool.submitImpl task cleanup).1
  | .notifyOne waiter => pool.notifyOne waiter
  | .stopAdmission => some pool.stopAdmission
  | .drain => some { pool with drainers := pool.drainers ++ [.ready] }
  | .drainer index => pool.drainer index
  | .shutdown drain => some (pool.shutdown drain)
  | .notifyAll =>
    if pool.notifyingAll then some { pool with notifyingAll := false }.notifyAll else none
  | .worker index =>
    match pool.workers[index]? with
    | some .ready => some (pool.takeItem index)
    | some (.running item) => some (pool.finishItem index item)
    | _ => none

/-- A task is queued, and nobody will look at it. -/
def Stuck : Prop :=
  pool.executor.queue ≠ [] ∧ pool.executor.stopping = false ∧
    (∀ worker ∈ pool.workers, worker = .blocked) ∧ pool.notifying = 0

/-- A notification does not go to a caller of `drain` while every worker waits. -/
def ReachesWorker : PoolAction τ → Prop
  | .notifyOne (some (.drainer _)) => ∃ worker ∈ pool.workers, worker.isBlocked = false
  | _ => True

instance : (action : PoolAction τ) → Decidable (pool.ReachesWorker action)
  | .notifyOne (some (.drainer _)) =>
    inferInstanceAs (Decidable (∃ worker ∈ pool.workers, worker.isBlocked = false))
  | .notifyOne none | .notifyOne (some (.worker _)) | .submit .. | .stopAdmission | .drain
  | .drainer _ | .shutdown _ | .notifyAll | .worker _ => .isTrue trivial

def running : List (ExecutorItem τ) := pool.workers.filterMap WorkerPhase.item

def Drained : Prop :=
  pool.executor.stopping = true ∧ pool.draining = true ∧ ∀ worker ∈ pool.workers, worker = .exited

/-- The queue keeps within its limits and its counter, and a place in it is left for cleanup. -/
structure Accounts : Prop where
  capacity : pool.executor.queue.length ≤ pool.executor.capacity
  ordinary : pool.executor.ordinaryQueued = pool.executor.queue.countP fun item => !item.cleanup
  bounded : pool.executor.ordinaryQueued ≤ pool.executor.capacity - pool.executor.cleanupReserve
  decrement : ∀ item ∈ pool.executor.queue.head?, item.cleanup = false →
    0 < pool.executor.ordinaryQueued
  cleanup : pool.executor.stopping = false →
    pool.executor.queue.countP ExecutorItem.cleanup < pool.executor.cleanupReserve →
    ∀ task, (pool.submitImpl (some task) true).2 = true

end ExecutorPool

end LinuxcncCtrl
