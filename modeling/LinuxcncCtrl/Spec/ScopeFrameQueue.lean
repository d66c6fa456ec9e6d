import Mathlib

/-! `ScopeFrameQueue` of scope/controller.cc: one frame in flight, one pending. Its functions hold its
mutex and are atomic here; `publish` calls the listener after it has released the mutex, which is the
caller's next step. -/

namespace LinuxcncCtrl

/-- An owner is the name of a client session; the empty name is nobody. -/
abbrev ScopeOwner := List Char

inductive ScopeFrameKind
  | capture
  | roll
  deriving DecidableEq

structure ScopeFrame (P : Type) where
  generation : ℕ := 0
  skippedFrames : ℕ := 0
  kind : ScopeFrameKind := .capture
  payload : P

structure ScopeFrameQueue (P : Type) where
  owner : ScopeOwner := []
  inFlight : Option (ScopeFrame P) := none
  pending : Option (ScopeFrame P) := none
  delivered : Bool := false
  nextGeneration : ℕ := 1
  pendingSkippedFrames : ℕ := 0
  skippedFrames : ℕ := 0

namespace ScopeFrameQueue

variable {P : Type} (queue : ScopeFrameQueue P)

def acquire (owner : ScopeOwner) : Bool × ScopeFrameQueue P :=
  if owner = [] then (false, queue)
  else if queue.owner ≠ [] ∧ queue.owner ≠ owner then (false, queue)
  else (true, { queue with owner })

def clear (owner : ScopeOwner) : ScopeFrameQueue P :=
  if queue.owner ≠ owner then queue
  else
    { queue with
      inFlight := none
      pending := none
      delivered := false
      pendingSkippedFrames := 0 }

def release (owner : ScopeOwner) : ScopeFrameQueue P :=
  if queue.owner ≠ owner then queue
  else
    { queue with
      owner := []
      inFlight := none
      pending := none
      delivered := false
      pendingSkippedFrames := 0
      skippedFrames := 0 }

def publish (frame : ScopeFrame P) : Bool × ScopeFrameQueue P :=
  if queue.owner = [] then (false, queue)
  else
    let frame := { frame with generation := queue.nextGeneration, skippedFrames := 0 }
    match queue.inFlight with
    | some _ =>
      (true, { queue with
        nextGeneration := queue.nextGeneration + 1
        pendingSkippedFrames := queue.pendingSkippedFrames + queue.pending.isSome.toNat
        pending := some frame })
    | none =>
      (true, { queue with
        nextGeneration := queue.nextGeneration + 1
        delivered := false
        inFlight := some frame })

def next (owner : ScopeOwner) : Option (ScopeFrame P) × ScopeFrameQueue P :=
  if queue.owner ≠ owner ∨ queue.inFlight.isNone ∨ queue.delivered then (none, queue)
  else (queue.inFlight, { queue with delivered := true })

def acknowledge (owner : ScopeOwner) (generation : ℕ) :
    Option (ScopeFrame P) × ScopeFrameQueue P :=
  match queue.inFlight with
  | none => (none, queue)
  | some frame =>
    if queue.owner ≠ owner ∨ frame.generation ≠ generation then (none, queue)
    else
      match queue.pending with
      | none => (none, { queue with inFlight := none, delivered := false })
      | some pending =>
        let pending := { pending with skippedFrames := queue.pendingSkippedFrames }
        (some pending, { queue with
          skippedFrames := queue.skippedFrames + queue.pendingSkippedFrames
          pendingSkippedFrames := 0
          inFlight := some pending
          pending := none
          delivered := true })

/-- `wait_next` in the state in which its wait ends, on a notification or at the timeout: it checks again what
it waited for. -/
def waitNext (owner : ScopeOwner) : Option (ScopeFrame P) × ScopeFrameQueue P := queue.next owner

end ScopeFrameQueue

inductive ScopeQueueAction (P : Type)
  | acquire (owner : ScopeOwner)
  | publish (frame : ScopeFrame P)
  | next (owner : ScopeOwner)
  | waitNext (owner : ScopeOwner)
  | acknowledge (owner : ScopeOwner) (generation : ℕ)
  | clear (owner : ScopeOwner)
  | release (owner : ScopeOwner)

/-- A frame returned to a caller, with the owner of the queue at that time; a clear and a release that took
effect. -/
inductive ScopeQueueEvent (P : Type)
  | returned (caller owner : ScopeOwner) (frame : ScopeFrame P)
  | cleared
  | released

/-- The queue, the frames published to it, with the generation they got, and what its calls did. -/
structure ScopeQueueHistory (P : Type) where
  queue : ScopeFrameQueue P := {}
  published : List (ScopeFrame P) := []
  events : List (ScopeQueueEvent P) := []

namespace ScopeQueueHistory

variable {P : Type} (history : ScopeQueueHistory P)

def answer (caller : ScopeOwner) (result : Option (ScopeFrame P) × ScopeFrameQueue P) :
    ScopeQueueHistory P :=
  { history with
    queue := result.2
    events := history.events ++ (result.1.map fun frame =>
      .returned caller history.queue.owner frame).toList }

def step : ScopeQueueAction P → Option (ScopeQueueHistory P)
  | .acquire owner => some { history with queue := (history.queue.acquire owner).2 }
  | .publish frame =>
    let result := history.queue.publish frame
    some { history with
      queue := result.2
      published :=
        if result.1 then
          history.published ++
            [{ frame with generation := history.queue.nextGeneration, skippedFrames := 0 }]
        else history.published }
  | .next owner => some (history.answer owner (history.queue.next owner))
  | .waitNext owner => some (history.answer owner (history.queue.waitNext owner))
  | .acknowledge owner generation =>
    some (history.answer owner (history.queue.acknowledge owner generation))
  | .clear owner =>
    some { history with
      queue := history.queue.clear owner
      events := if history.queue.owner = owner then history.events ++ [.cleared] else history.events }
  | .release owner =>
    some { history with
      queue := history.queue.release owner
      events := if history.queue.owner = owner then history.events ++ [.released] else history.events }

def returned : List (ScopeFrame P) :=
  history.events.filterMap fun
    | .returned _ _ frame => some frame
    | _ => none

/-- The skipped frames of what was returned since the queue was acquired. -/
def skippedSinceAcquired : ℕ :=
  history.events.foldl (fun total event =>
    match event with
    | .returned _ _ frame => total + frame.skippedFrames
    | .cleared => total
    | .released => 0) 0

/-- The frame in flight has been returned when it is acknowledged. -/
def AcknowledgesReturned : ScopeQueueAction P → Prop
  | .acknowledge owner generation =>
    ∀ frame ∈ history.queue.inFlight, history.queue.owner = owner → frame.generation = generation →
      history.queue.delivered = true
  | _ => True

instance (action : ScopeQueueAction P) : Decidable (history.AcknowledgesReturned action) := by
  cases action <;> dsimp only [AcknowledgesReturned] <;> infer_instance

end ScopeQueueHistory

end LinuxcncCtrl
