import LinuxcncCtrl.Lib.Runs
import LinuxcncCtrl.Spec.ProgramPreview

/-! A program preview WebSocket session: the preview branches of `Session` in
telemetry_websocket_server.cc. The parser worker sends its events by posting them to the one thread that
runs the session; before a batch it waits on the condition of `PreviewFlow`. The worker tests its
predicate under the mutex and then blocks, which releases the mutex; a blocked worker goes on only when
it is notified. On the session's thread callbacks run one at a time, and the parts of `stop` and `fail`
that the worker can notice are steps of their own. -/

namespace LinuxcncCtrl

open Lib

variable {O : Type}

/-- `delivered` has the events of `sent` without the progress reports that a later report replaced. -/
inductive PreviewEvent.Coalesced : List (PreviewEvent O) → List (PreviewEvent O) → Prop
  | nil : Coalesced [] []
  | keep {sent delivered : List (PreviewEvent O)} {event : PreviewEvent O} :
      Coalesced sent delivered → Coalesced (sent ++ [event]) (delivered ++ [event])
  | replace {sent delivered : List (PreviewEvent O)} {old event : PreviewEvent O} :
      old.isProgress = true → event.isProgress = true → Coalesced sent (delivered ++ [old]) →
      Coalesced (sent ++ [event]) (delivered ++ [event])

/-- `PreviewFlow` without its mutex, which the worker holds while it is testing or deciding. -/
structure PreviewFlow where
  stopRequested : Bool := false
  outstandingBatches : ℕ := 0
  deriving DecidableEq

/-- Where the worker is: between two events, with the mutex and about to test its predicate, with the
mutex after a test that failed, in the wait set, or notified and about to take the mutex again. -/
inductive PreviewWorker
  | running
  | testing
  | deciding
  | blocked
  | notified
  deriving DecidableEq

/-- What is left to do of a `stop` or a `fail`. -/
inductive CloseStep
  | requestStop
  | notifyAll
  | fail
  | clear
  deriving DecidableEq

/-- `script` is what the worker has still to send, `posted` what waits for the session's thread, `active`
the message being written. `processed` and `written` keep the events that reached the queue and the
socket. -/
structure PreviewSession (O : Type) where
  script : List (PreviewEvent O)
  worker : PreviewWorker := .running
  flow : PreviewFlow := {}
  posted : List (PreviewEvent O) := []
  queue : List (PreviewEvent O) := []
  active : Option (PreviewEvent O) := none
  closeSteps : List CloseStep := []
  closing : Bool := false
  closed : Bool := false
  processed : List (PreviewEvent O) := []
  written : List (PreviewEvent O) := []
  deriving DecidableEq

inductive PreviewAction
  | work
  | abandon
  | posted
  | writeDone (ok : Bool)
  | readDone (ok : Bool)
  | stop
  | fail
  | close
  deriving DecidableEq

def PreviewAction.advances : PreviewAction → Bool
  | .work | .posted | .writeDone true => true
  | _ => false

namespace PreviewSession

variable (session : PreviewSession O)

/-- The worker does not hold the mutex of the flow. -/
def mutexFree : Bool := session.worker ≠ .testing ∧ session.worker ≠ .deciding

def pumpPreview : PreviewSession O :=
  match session.queue with
  | [] => session
  | event :: queue =>
    if session.active.isSome ∨ session.closed then session
    else
      { session with
        queue
        active := some event
        written := session.written ++ [event] }

def enqueuePreview (event : PreviewEvent O) : PreviewSession O :=
  if session.closed then session
  else
    let session := { session with processed := session.processed ++ [event] }
    if event.isProgress ∧ ∃ last ∈ session.queue.getLast?, last.isProgress = true then
      { session with queue := session.queue.dropLast ++ [event] }.pumpPreview
    else { session with queue := session.queue ++ [event] }.pumpPreview

def notifyAll : PreviewSession O :=
  { session with
    worker := if session.worker = .blocked then .notified else session.worker }

/-- `send_batch` on the worker, and the sending of other events. An event is posted in the step that
counts it. -/
def work : Option (PreviewSession O) :=
  match session.worker, session.script with
  | _, [] => none
  | .running, event :: script =>
    if event.isBatch then some { session with worker := .testing }
    else some { session with script, posted := session.posted ++ [event] }
  | .testing, event :: script =>
    if session.flow.stopRequested then some { session with worker := .running, script := [] }
    else if session.flow.outstandingBatches < 2 then
      some { session with
        worker := .running
        flow := { session.flow with outstandingBatches := session.flow.outstandingBatches + 1 }
        script
        posted := session.posted ++ [event] }
    else some { session with worker := .deciding }
  | .deciding, _ :: _ => some { session with worker := .blocked }
  | .blocked, _ :: _ => none
  | .notified, _ :: _ => some { session with worker := .testing }

/-- `on_write` without an error; it needs the mutex for a batch. -/
def onWrite (event : PreviewEvent O) : PreviewSession O :=
  let session := { session with active := none }
  let session :=
    if event.isBatch then
      { session with
        flow :=
          { session.flow with outstandingBatches := session.flow.outstandingBatches - 1 } }.notifyAll
    else session
  if session.closing ∨ event.isTerminal then session else session.pumpPreview

def close : Option (PreviewSession O) :=
  match session.closeSteps with
  | [] => none
  | .requestStop :: closeSteps =>
    some { session with closeSteps, flow := { session.flow with stopRequested := true } }
  | .notifyAll :: closeSteps => some { session with closeSteps }.notifyAll
  | .fail :: closeSteps =>
    if session.closed then some { session with closeSteps }
    else
      some { session with
        closed := true
        closeSteps := .requestStop :: .notifyAll :: .clear :: closeSteps }
  | .clear :: closeSteps => some { session with closeSteps, queue := [] }

/-- A callback starts only when no `stop` or `fail` is under way on the session's thread. A worker that
notices the stop between two events sends at most a progress report more, which finds the session
closed. -/
def step : PreviewAction → Option (PreviewSession O)
  | .work => session.work
  | .abandon =>
    if session.flow.stopRequested ∧ session.worker = .running then
      some { session with script := [] }
    else none
  | .posted =>
    match session.posted with
    | [] => none
    | event :: posted =>
      if session.closeSteps = [] then some ({ session with posted }.enqueuePreview event) else none
  | .writeDone ok =>
    match session.active with
    | none => none
    | some event =>
      if session.closeSteps ≠ [] then none
      else if ok = false then some { session with active := none, closeSteps := [.fail] }
      else if event.isBatch ∧ session.mutexFree = false then none
      else some (session.onWrite event)
  | .readDone ok =>
    if session.closeSteps ≠ [] then none
    else if ok = false then some { session with closeSteps := [.fail] }
    else some { session with closing := true }
  | .stop =>
    if session.closeSteps ≠ [] then none
    else some { session with closeSteps := [.requestStop, .notifyAll, .fail] }
  | .fail => if session.closeSteps ≠ [] then none else some { session with closeSteps := [.fail] }
  | .close => session.close

/-- The preview is not cancelled: no `stop` or `fail` has begun. -/
def Live : Prop :=
  session.flow.stopRequested = false ∧ session.closed = false ∧ session.closeSteps = []

def Complete : Prop :=
  session.script = [] ∧ session.posted = [] ∧ session.queue = [] ∧ session.active = none

/-- Batch messages that are posted, queued or being written. -/
def outstanding : ℕ :=
  (session.posted ++ session.queue ++ session.active.toList).countP PreviewEvent.isBatch

/-- A bound on what is left to do: an event is sent, handled and written, and each write may wake the
worker once. -/
def remaining : ℕ :=
  8 * session.script.length + 6 * session.posted.length + 5 * session.queue.length +
    4 * session.active.toList.length +
    match session.worker with
    | .running | .notified => 3
    | .testing => 2
    | .deciding => 1
    | .blocked => 0

def writtenOperations : List O := session.written.flatMap PreviewEvent.operations

/-- What the client has of a preview that is over: of the events only progress reports are coalesced, the
only terminal event is the last, and a summary counts the operations, which are then all there. -/
structure Delivered (limits : PreviewLimits O) (program : PreviewProgram O) : Prop where
  coalesced : PreviewEvent.Coalesced (previewEvents limits program) session.written
  terminal : ∃ body terminal, session.written = body ++ [terminal] ∧ terminal.isTerminal = true ∧
    ∀ event ∈ body, event.isTerminal = false
  summary : ∀ count, session.written.getLast? = some (.summary count) →
    session.writtenOperations = addedOperations limits program ∧
      count = session.writtenOperations.length

/-- What holds all along a preview of the program. -/
structure Streams (limits : PreviewLimits O) (program : PreviewProgram O) : Prop where
  batches : ∀ operations, .batch operations ∈ session.written → operations ≠ [] ∧
    operations.length ≤ limits.batchSize ∧ limits.encodedSize operations ≤ maxPreviewBytes
  operations : session.writtenOperations <+: addedOperations limits program
  events : ∃ sent, sent <+: previewEvents limits program ∧
    PreviewEvent.Coalesced sent (session.written ++ session.queue)
  outstanding : session.outstanding ≤ 2

/-- The worker has been asked to stop, `stop` and `fail` are over, and nothing has woken it. -/
def Abandoned : Prop :=
  session.flow.stopRequested = true ∧ session.closeSteps = [] ∧ session.worker = .blocked

instance : Decidable session.Abandoned := inferInstanceAs (Decidable (_ ∧ _ ∧ _))

/-- `notify_all` of a `stop` or `fail` does not run while the worker is between the test of its predicate
and its block. -/
def Notices (action : PreviewAction) : Prop :=
  action = .close → session.closeSteps.head? = some .notifyAll → session.worker ≠ .deciding

instance (action : PreviewAction) : Decidable (session.Notices action) :=
  inferInstanceAs (Decidable (_ → _ → _))

def start (limits : PreviewLimits O) (program : PreviewProgram O) : PreviewSession O :=
  { script := previewEvents limits program }

end PreviewSession

end LinuxcncCtrl
