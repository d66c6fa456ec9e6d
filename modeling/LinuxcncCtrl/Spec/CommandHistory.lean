import LinuxcncCtrl.Spec.CommandCoordinator

/-! The coordinator with the history of its actions: which were accepted, which the worker has started and
which have ended, in order, and which were deferred. The history is written and never read. -/

namespace LinuxcncCtrl

deriving instance DecidableEq for CommandItem

namespace CommandCoordinator

variable (coordinator : CommandCoordinator)

def queueOf : CommandPriority → List CommandItem
  | .normal => coordinator.queue
  | .safety => coordinator.safetyQueue

def capacityOf : CommandPriority → ℕ
  | .normal => coordinator.capacity
  | .safety => coordinator.safetyCapacity

def acceptedItem (withContext : Bool) (priority : CommandPriority) : Option CommandItem :=
  if (coordinator.submit withContext priority).1 = .submitted then
    some
      { sequence := coordinator.nextSequence
        withContext
        ticket := coordinator.tickets.length }
  else none

def nextItem : Option (CommandPriority × CommandItem) :=
  match coordinator.safetyQueue, coordinator.queue with
  | item :: _, _ => some (.safety, item)
  | [], item :: _ => some (.normal, item)
  | [], [] => none

def running : Option CommandItem :=
  match coordinator.worker with
  | .executing item _ => some item
  | _ => none

def terminal (ticket : ℕ) : Bool :=
  coordinator.tickets[ticket]?.any fun state => state.result.state.terminal

end CommandCoordinator

/-- `deferrals` has the ticket whose action ran when `defer_completion` was called, and the ticket of the
context it was called on. The two differ only for a call through a dangling reference. -/
structure CommandHistory where
  coordinator : CommandCoordinator
  accepted : List (CommandPriority × CommandItem) := []
  started : List (CommandPriority × CommandItem) := []
  ended : List CommandItem := []
  deferrals : List (ℕ × ℕ) := []

namespace CommandHistory

variable (history : CommandHistory)

def construct (capacity safetyCapacity : ℕ) : CommandHistory :=
  { coordinator := .construct capacity safetyCapacity }

def record (coordinator : CommandCoordinator) : CommandCoordinatorAction → CommandHistory
  | .submit withContext priority =>
    { history with
      coordinator
      accepted := history.accepted ++
        (history.coordinator.acceptedItem withContext priority).toList.map fun item => (priority, item) }
  | .take =>
    { history with coordinator, started := history.started ++ history.coordinator.nextItem.toList }
  | .finish _ =>
    { history with coordinator, ended := history.ended ++ history.coordinator.running.toList }
  | .deferCompletion caller =>
    { history with
      coordinator
      deferrals := history.deferrals ++
        history.coordinator.running.toList.map fun item => (item.ticket, caller) }
  | _ => { history with coordinator }

def step (action : CommandCoordinatorAction) : Option CommandHistory :=
  (history.coordinator.step action).map fun coordinator => history.record coordinator action

def acceptedOf (priority : CommandPriority) : List CommandItem :=
  (history.accepted.filter fun entry => entry.1 = priority).map Prod.snd

def startedOf (priority : CommandPriority) : List CommandItem :=
  (history.started.filter fun entry => entry.1 = priority).map Prod.snd

end CommandHistory

/-- The steps of the worker when every action ends with `outcome`. -/
def CommandCoordinatorAction.OfWorker (outcome : CommandOutcome) (action : CommandCoordinatorAction) : Prop :=
  action = .take ∨ action = .finish outcome ∨ action = .resolve

end LinuxcncCtrl
