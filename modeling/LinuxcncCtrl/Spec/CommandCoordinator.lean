import LinuxcncCtrl.Lib.Runs

/-! command_coordinator.cc: the two queues, the worker, and the tickets with their observers. A
transition changes the ticket under its mutex and then calls the observers it has collected, so the
calls are steps of their own; several threads can have such calls left to make. The callbacks of a
`CommandContext` can be called at any time once the worker has made the context, from any thread.
Observers do not throw. -/

namespace LinuxcncCtrl

inductive CommandWaitPolicy
  | accepted
  | completed
  deriving DecidableEq

inductive CommandState
  | queued
  | accepted
  | completed
  | failed
  deriving DecidableEq

inductive CommandPriority
  | normal
  | safety
  deriving DecidableEq

inductive CommandSubmitStatus
  | submitted
  | queueFull
  | stopped
  deriving DecidableEq

structure CommandResult where
  sequence : ℕ := 0
  acceptedSequence : ℕ := 0
  state : CommandState := .queued
  error : String := ""
  deriving DecidableEq

def CommandState.terminal : CommandState → Bool
  | .completed | .failed => true
  | .queued | .accepted => false

def CommandWaitPolicy.ready (policy : CommandWaitPolicy) (state : CommandState) : Bool :=
  state.terminal || decide (policy = .accepted ∧ state = .accepted)

structure PendingObserver where
  policy : CommandWaitPolicy
  observer : ℕ

structure ObserverCall where
  observer : ℕ
  result : CommandResult

structure CommandTicketState where
  result : CommandResult
  observers : List PendingObserver := []

inductive CommandTransition
  | accepted (acceptedSequence : ℕ)
  | completed
  | failed (error : String)

def CommandTransition.state : CommandTransition → CommandState
  | .accepted _ => .accepted
  | .completed => .completed
  | .failed _ => .failed

def CommandTransition.error : CommandTransition → String
  | .failed error => error
  | _ => ""

/-- The part of `transition` under the mutex, and the calls it goes on to make. -/
def CommandTicketState.transition (ticket : CommandTicketState) (transition : CommandTransition) :
    CommandTicketState × List ObserverCall :=
  if ticket.result.state.terminal then (ticket, [])
  else if transition.state = .accepted ∧ ticket.result.state ≠ .queued then (ticket, [])
  else
    let result :=
      { ticket.result with
        acceptedSequence :=
          match transition with
          | .accepted acceptedSequence => acceptedSequence
          | _ => ticket.result.acceptedSequence
        state := transition.state
        error := transition.error }
    let called := ticket.observers.filter fun observer => observer.policy.ready transition.state
    let left := ticket.observers.filter fun observer => !observer.policy.ready transition.state
    ({ result, observers := left }, called.map fun observer => ⟨observer.observer, result⟩)

/-- The part of `observe` under the mutex, and the call it makes if the state is there already. -/
def CommandTicketState.observe (ticket : CommandTicketState) (policy : CommandWaitPolicy)
    (observer : ℕ) : CommandTicketState × List ObserverCall :=
  if policy.ready ticket.result.state then (ticket, [⟨observer, ticket.result⟩])
  else ({ ticket with observers := ticket.observers ++ [⟨policy, observer⟩] }, [])

structure CommandItem where
  sequence : ℕ
  withContext : Bool
  ticket : ℕ

inductive CommandOutcome
  | returned
  | threw (error : String)
  | threwUnknown

inductive CommandWorker
  | idle
  | executing (item : CommandItem) (deferred : Bool)
  | resolving (ticket : ℕ) (transitions : List CommandTransition)
  | exited

/-- What `run` does with the ticket after the action. -/
def CommandItem.transitions (item : CommandItem) (deferred : Bool) :
    CommandOutcome → List CommandTransition
  | .returned =>
    if item.withContext then if deferred then [] else [.completed]
    else [.accepted 0, .completed]
  | .threw error => [.failed error]
  | .threwUnknown => [.failed "command failed with an unknown exception"]

structure CommandObservation where
  observer : ℕ
  ticket : ℕ
  policy : CommandWaitPolicy

/-- `calling` has the calls that some thread has collected and not made yet, `calls` those made;
`contexts` the tickets whose context exists. -/
structure CommandCoordinator where
  capacity : ℕ
  safetyCapacity : ℕ
  queue : List CommandItem := []
  safetyQueue : List CommandItem := []
  nextSequence : ℕ := 1
  stopping : Bool := false
  worker : CommandWorker := .idle
  tickets : List CommandTicketState := []
  contexts : List ℕ := []
  observations : List CommandObservation := []
  calling : List (List ObserverCall) := []
  calls : List ObserverCall := []

inductive CommandCoordinatorAction
  | submit (withContext : Bool) (priority : CommandPriority)
  | stop
  | take
  | finish (outcome : CommandOutcome)
  | resolve
  | exit
  | markAccepted (ticket acceptedSequence : ℕ)
  | deferCompletion (ticket : ℕ)
  | markCompleted (ticket : ℕ)
  | markFailed (ticket : ℕ) (error : String)
  | observe (ticket : ℕ) (policy : CommandWaitPolicy)
  | call (index : ℕ)

namespace CommandCoordinator

def construct (capacity safetyCapacity : ℕ) : CommandCoordinator :=
  { capacity := if capacity = 0 then 1 else capacity
    safetyCapacity := if safetyCapacity = 0 then 1 else safetyCapacity }

variable (coordinator : CommandCoordinator)

def submit (withContext : Bool) (priority : CommandPriority) :
    CommandSubmitStatus × CommandCoordinator :=
  let queue := match priority with
    | .safety => coordinator.safetyQueue
    | .normal => coordinator.queue
  let capacity := match priority with
    | .safety => coordinator.safetyCapacity
    | .normal => coordinator.capacity
  if coordinator.stopping then (.stopped, coordinator)
  else if capacity ≤ queue.length then (.queueFull, coordinator)
  else
    let sequence := coordinator.nextSequence
    let item : CommandItem := { sequence, withContext, ticket := coordinator.tickets.length }
    let ticket : CommandTicketState := { result := { sequence } }
    let coordinator :=
      { coordinator with
        nextSequence := sequence + 1
        tickets := coordinator.tickets ++ [ticket] }
    match priority with
    | .safety =>
      (.submitted, { coordinator with safetyQueue := coordinator.safetyQueue ++ [item] })
    | .normal => (.submitted, { coordinator with queue := coordinator.queue ++ [item] })

/-- A ticket after one of its functions; the calls it has collected join those to be made. -/
def setTicket (ticket : ℕ) (updated : CommandTicketState × List ObserverCall) :
    CommandCoordinator :=
  { coordinator with
    tickets := coordinator.tickets.set ticket updated.1
    calling := coordinator.calling ++ [updated.2] }

def transition (ticket : ℕ) (transition : CommandTransition) : CommandCoordinator :=
  match coordinator.tickets[ticket]? with
  | none => coordinator
  | some state => coordinator.setTicket ticket (state.transition transition)

def start (item : CommandItem) : CommandCoordinator :=
  { coordinator with
    worker := .executing item false
    contexts := if item.withContext then item.ticket :: coordinator.contexts else coordinator.contexts }

/-- `deferred` is a variable of the worker's stack frame. A call after the action has returned goes
through a dangling reference; it can then hit the variable of the action that runs now. -/
def deferCompletion : CommandCoordinator :=
  match coordinator.worker with
  | .executing item _ => { coordinator with worker := .executing item true }
  | _ => coordinator

def step : CommandCoordinatorAction → Option CommandCoordinator
  | .submit withContext priority => some (coordinator.submit withContext priority).2
  | .stop => some { coordinator with stopping := true }
  | .take =>
    match coordinator.worker, coordinator.safetyQueue, coordinator.queue with
    | .idle, item :: rest, _ => some ({ coordinator with safetyQueue := rest }.start item)
    | .idle, [], item :: rest => some ({ coordinator with queue := rest }.start item)
    | _, _, _ => none
  | .finish outcome =>
    match coordinator.worker with
    | .executing item deferred =>
      some { coordinator with worker := .resolving item.ticket (item.transitions deferred outcome) }
    | _ => none
  | .resolve =>
    match coordinator.worker with
    | .resolving ticket (next :: rest) =>
      some ({ coordinator with worker := .resolving ticket rest }.transition ticket next)
    | .resolving _ [] => some { coordinator with worker := .idle }
    | _ => none
  | .exit =>
    match coordinator.worker, coordinator.safetyQueue, coordinator.queue with
    | .idle, [], [] =>
      if coordinator.stopping then some { coordinator with worker := .exited } else none
    | _, _, _ => none
  | .markAccepted ticket acceptedSequence =>
    if ticket ∈ coordinator.contexts then
      some (coordinator.transition ticket (.accepted acceptedSequence))
    else none
  | .deferCompletion ticket =>
    if ticket ∈ coordinator.contexts then some coordinator.deferCompletion else none
  | .markCompleted ticket =>
    if ticket ∈ coordinator.contexts then some (coordinator.transition ticket .completed) else none
  | .markFailed ticket error =>
    if ticket ∈ coordinator.contexts then some (coordinator.transition ticket (.failed error))
    else none
  | .observe ticket policy =>
    match coordinator.tickets[ticket]? with
    | none => none
    | some state =>
      let observation : CommandObservation := ⟨coordinator.observations.length, ticket, policy⟩
      some ({ coordinator with
        observations := coordinator.observations ++ [observation] }.setTicket ticket
          (state.observe policy observation.observer))
  | .call index =>
    match coordinator.calling[index]? with
    | some (call :: rest) =>
      some { coordinator with
        calling := coordinator.calling.set index rest
        calls := coordinator.calls ++ [call] }
    | _ => none

end CommandCoordinator

end LinuxcncCtrl
