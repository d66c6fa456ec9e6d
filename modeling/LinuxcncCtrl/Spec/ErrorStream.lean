import LinuxcncCtrl.Lib.ConsecutiveQueue
import LinuxcncCtrl.Lib.Runs
import LinuxcncCtrl.Spec.StatusStream

/-! The stream of operator errors: `SequencedRing` of callback_runtime.hpp and the `ErrorReactor` of the
machine service. The poll thread puts an error into the ring and then calls the listeners; the
reactor's callbacks are serialised by its lifetime gate. Sequences are natural numbers, and the one
addition on a cursor that a client chose wraps at 64 bits. -/

namespace LinuxcncCtrl

open Lib

variable {E : Type}

structure SequencedEntry (E : Type) where
  sequence : ℕ
  event : E

structure RingReadResult (E : Type) where
  behind : Bool := false
  entries : List (SequencedEntry E) := []

structure SequencedRing (E : Type) where
  capacity : ℕ
  entries : List (SequencedEntry E) := []
  nextSequence : ℕ := 1

namespace SequencedRing

variable (ring : SequencedRing E)

def publish (event : E) : SequencedRing E :=
  let entries := ring.entries ++ [⟨ring.nextSequence, event⟩]
  { ring with
    nextSequence := ring.nextSequence + 1
    entries := if ring.capacity < entries.length then entries.tail else entries }

def after (sequence : ℕ) : RingReadResult E :=
  if sequence ≠ 0 ∧ ∃ front ∈ ring.entries.head?, (sequence + 1) % 2 ^ 64 < front.sequence then
    { behind := true }
  else { entries := ring.entries.filter fun entry => decide (sequence < entry.sequence) }

def oldest : ℕ := (ring.entries.head?.map SequencedEntry.sequence).getD ring.nextSequence

end SequencedRing

structure ErrorReactor where
  cursor : ℕ := 0
  writingSequence : ℕ := 0
  subscribed : Bool := false
  writeFinish : DeferredWriteFinish := {}
  gate : GateState := .opened
  finished : Option GrpcStatus := none

def fellBehind : GrpcStatus :=
  ⟨.resourceExhausted, "error reader fell behind retained events"⟩

namespace ErrorReactor

variable (reactor : ErrorReactor)

def finishIfReady : ErrorReactor × Bool :=
  match reactor.writeFinish.takeFinishStatus with
  | none => (reactor, false)
  | some (status, writeFinish) =>
    if reactor.gate = .opened then
      ({ reactor with
        writeFinish, gate := .finishing, subscribed := false, finished := some status }, true)
    else ({ reactor with writeFinish }, true)

def requestFinish (status : GrpcStatus) : ErrorReactor :=
  { reactor with
    subscribed := false
    writeFinish := reactor.writeFinish.requestFinish status }.finishIfReady.1

/-- `LifetimeGate::invoke`: a call that finds the gate closed does nothing. -/
def invoke (call : ErrorReactor → ErrorReactor) : ErrorReactor :=
  if reactor.gate = .opened then call reactor else reactor

def onCancel : ErrorReactor :=
  reactor.invoke fun reactor => reactor.requestFinish ⟨.cancelled, "error stream cancelled"⟩

def shutdown : ErrorReactor :=
  reactor.requestFinish ⟨.unavailable, "server shutting down"⟩

end ErrorReactor

/-- One message handed to `StartWrite`, with the oldest sequence that was retained then. -/
structure ErrorWrite (E : Type) where
  sequence : ℕ
  event : E
  oldest : ℕ

/-- `afterSequence` is the request. `notifying` counts the publications whose listeners have still to
be called. The rest is kept for the proofs: all errors published and all messages written, how many
errors had been published when the stream subscribed, and whether anything but the ring has ended
it. -/
structure ErrorStream (E : Type) where
  ring : SequencedRing E
  afterSequence : UInt64
  reactor : ErrorReactor := {}
  stage : WatchStage := .absent
  notifying : ℕ := 0
  published : List E := []
  written : List (ErrorWrite E) := []
  openedAt : ℕ := 0
  interrupted : Bool := false

inductive ErrorAction (E : Type)
  | publish (event : E)
  | notify
  /-- The constructor of the reactor, in three steps. -/
  | watch (registered admitted : Bool)
  | subscribe
  | firstWake
  | writeDone (ok : Bool)
  | cancel
  | shutdown
  | onDone

namespace ErrorStream

variable (stream : ErrorStream E)

def initial (capacity : ℕ) (afterSequence : UInt64) : ErrorStream E :=
  { ring := { capacity }, afterSequence }

def wake : ErrorStream E :=
  let reactor := stream.reactor
  if reactor.writeFinish.writeInFlight ∨ reactor.writeFinish.terminationRequested ∨
      reactor.gate ≠ .opened then stream
  else
    let available := stream.ring.after reactor.cursor
    if available.behind then { stream with reactor := reactor.requestFinish fellBehind }
    else
      match available.entries with
      | [] => stream
      | entry :: _ =>
        let reactor := { reactor with writingSequence := entry.sequence }
        match reactor.writeFinish.tryStartWrite with
        | none => { stream with reactor }
        | some writeFinish =>
          { stream with
            reactor := { reactor with writeFinish }
            written := stream.written ++ [⟨entry.sequence, entry.event, stream.ring.oldest⟩] }

def writeDone (ok : Bool) : ErrorStream E :=
  let stream := { stream with interrupted := stream.interrupted || !ok }
  let done : ErrorReactor :=
    { stream.reactor with writeFinish := stream.reactor.writeFinish.completeWrite ok }
  match done.finishIfReady with
  | (reactor, finished) =>
    if finished ∨ ok = false then { stream with reactor }
    else { stream with reactor := { reactor with cursor := reactor.writingSequence } }.wake

def step : ErrorAction E → Option (ErrorStream E)
  | .publish event =>
    some { stream with
      ring := stream.ring.publish event
      published := stream.published ++ [event]
      notifying := stream.notifying + 1 }
  | .notify =>
    if stream.notifying = 0 then none
    else
      let stream := { stream with notifying := stream.notifying - 1 }
      some (if stream.reactor.subscribed then stream.wake else stream)
  | .watch registered admitted =>
    if stream.stage ≠ .absent then none
    else if registered = false then
      some { stream with stage := .running, reactor := stream.reactor.shutdown, interrupted := true }
    else if admitted = false then
      some { stream with
        stage := .running
        reactor :=
          stream.reactor.requestFinish ⟨.resourceExhausted, "stream admission limit reached"⟩
        interrupted := true }
    else
      some { stream with
        stage := .constructing
        reactor := { stream.reactor with cursor := stream.afterSequence.toNat } }
  | .subscribe =>
    if stream.stage = .constructing then
      some { stream with
        stage := .subscribed
        openedAt := stream.published.length
        reactor := { stream.reactor with subscribed := true } }
    else none
  | .firstWake =>
    if stream.stage = .subscribed then
      some { stream with stage := .running }.wake
    else none
  | .writeDone ok =>
    if stream.reactor.writeFinish.writeInFlight then
      some (if stream.reactor.gate = .opened then stream.writeDone ok else stream)
    else none
  | .cancel =>
    if stream.stage = .absent then none
    else some { stream with reactor := stream.reactor.onCancel, interrupted := true }
  | .shutdown =>
    if stream.stage = .absent then none
    else
      some { stream with
        reactor := stream.reactor.invoke ErrorReactor.shutdown, interrupted := true }
  | .onDone =>
    if stream.reactor.gate = .finishing ∧ stream.stage = .running then
      some { stream with reactor := { stream.reactor with gate := .done, subscribed := false } }
    else none

def next : ℕ :=
  (stream.written.getLast?.map ErrorWrite.sequence).getD stream.afterSequence.toNat + 1

def Discarded : Prop :=
  (stream.afterSequence ≠ 0 ∨ stream.written ≠ []) ∧
    ∃ front ∈ stream.ring.entries.head?, stream.next < front.sequence

def Settled : Prop :=
  stream.stage = .running ∧ stream.notifying = 0 ∧
    stream.reactor.writeFinish.writeInFlight = false

/-- The listeners of an error are called before the next one is published. -/
def Prompt : ErrorAction E → Prop
  | .publish _ => stream.notifying = 0
  | _ => True

end ErrorStream

end LinuxcncCtrl
