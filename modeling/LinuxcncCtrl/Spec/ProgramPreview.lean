import Mathlib

/-! The parser's side of a program preview: `ParseContext` of gcode/canon_preview.cc, the loop of
`parse_file` in gcode/parser.cc, and the callbacks that `start_preview` gives it. The interpreter is an
input: which operations each of its steps records, where a step fails, and when progress is reported.
An operation is an opaque value with a size in memory; a batch of operations has an encoded size. The
stop token is not set here: a preview that is cancelled is the session's concern. Extents and the
percentage of a progress report are left out. -/

namespace LinuxcncCtrl

inductive PreviewErrorCode
  | invalidEntry | interpreter | internal
  deriving DecidableEq

structure PreviewError where
  code : PreviewErrorCode
  message : String
  lineNumber : Option ℤ := none
  deriving DecidableEq

inductive PreviewEvent (O : Type)
  | progress (bytesRead totalBytes operationCount : ℕ)
  | batch (operations : List O)
  | summary (operationCount : ℕ)
  | error (error : PreviewError)
  deriving DecidableEq

namespace PreviewEvent

variable {O : Type}

def isProgress : PreviewEvent O → Bool
  | progress .. => true
  | _ => false

def isBatch : PreviewEvent O → Bool
  | batch _ => true
  | _ => false

def isTerminal : PreviewEvent O → Bool
  | summary _ | error _ => true
  | _ => false

def operations : PreviewEvent O → List O
  | batch operations => operations
  | _ => []

end PreviewEvent

/-- What the recording canon holds after a call of the interpreter: the operations that are added, and
what is thrown after them, if an event is not finite or the recording is over its limit. -/
structure Recorded (O : Type) where
  operations : List O
  failure : Option PreviewError := none

/-- One turn of the loop; `reported` are the bytes of a progress report that is due. -/
structure InterpStep (O : Type) extends Recorded O where
  reported : Option ℕ := none

/-- What a preview meets. `leased` is the result of `pin_entry`; `startup` is recorded before the program
is opened; `ending` is the error the last read or execute returned, if it was not the end of the file;
`closing` is recorded after the last step. -/
structure PreviewProgram (O : Type) where
  leased : Bool := true
  totalBytes : ℕ
  startup : Recorded O := { operations := [] }
  steps : List (InterpStep O)
  ending : Option PreviewError := none
  closing : Recorded O := { operations := [] }

/-- `operationSize` is `operation_size`, `encodedSize` the `ByteSizeLong` of a batch event. -/
structure PreviewLimits (O : Type) where
  batchSize : ℕ
  operationSize : O → ℕ
  encodedSize : List O → ℕ

def maxPreviewBytes : ℕ := 4 * 1024 * 1024

def batchTooLarge : PreviewError :=
  ⟨.internal, "G-code operation exceeds preview batch byte limit", none⟩

def frameTooLarge : PreviewError :=
  ⟨.internal, "G-code operation exceeds preview frame byte limit", none⟩

def entryMissing : PreviewError :=
  ⟨.invalidEntry, "program workspace entry is missing or unsafe", none⟩

namespace PreviewLimits

variable {O : Type} (limits : PreviewLimits O)

/-- The inner loop of `flushBatch`: how many operations go into the next batch. -/
def batchCount (maxBatch : ℕ) : ℕ → ℕ → List O → Except PreviewError ℕ
  | count, _, [] => .ok count
  | count, bytes, operation :: operations =>
    if maxBatch ≤ count then .ok count
    else
      let next := limits.operationSize operation
      if count ≠ 0 ∧ maxPreviewBytes < bytes + next then .ok count
      else if maxPreviewBytes < next then .error batchTooLarge
      else batchCount maxBatch (count + 1) (bytes + next) operations

/-- The loop of `on_batch` over the operations of a batch, with the event being filled. It gives the
events that are sent, and what is thrown. -/
def splitBatch : List O → List O → List (List O) × Option PreviewError
  | event, [] => (if event = [] then [] else [event], none)
  | event, operation :: operations =>
    if limits.encodedSize (event ++ [operation]) ≤ maxPreviewBytes then
      splitBatch (event ++ [operation]) operations
    else if event = [] then ([], some frameTooLarge)
    else if maxPreviewBytes < limits.encodedSize [operation] then ([event], some frameTooLarge)
    else
      let rest := splitBatch [operation] operations
      (event :: rest.1, rest.2)

/-- The outer loop of `flushBatch`, which takes at least one operation in each turn. -/
def flushLoop (maxBatch : ℕ) : ℕ → List O → List (List O) × Option PreviewError
  | 0, _ => ([], none)
  | _ + 1, [] => ([], none)
  | turns + 1, operation :: operations =>
    match limits.batchCount maxBatch 0 0 (operation :: operations) with
    | .error error => ([], some error)
    | .ok count =>
      match limits.splitBatch [] ((operation :: operations).take count) with
      | (events, some error) => (events, some error)
      | (events, none) =>
        let rest := flushLoop maxBatch turns ((operation :: operations).drop count)
        (events ++ rest.1, rest.2)

end PreviewLimits

/-- `ParseContext` with the events sent so far and the exception that ended the parse. `added` keeps all
operations for the proofs. -/
structure ParseContext (O : Type) where
  operations : List O := []
  operationCount : ℕ := 0
  events : List (PreviewEvent O) := []
  thrown : Option PreviewError := none
  added : List O := []

namespace ParseContext

variable {O : Type} (limits : PreviewLimits O) (context : ParseContext O)

/-- `consumeRecordingEvents` with `addOperation` for each operation. -/
def consume (recorded : Recorded O) : ParseContext O :=
  { context with
    operations := context.operations ++ recorded.operations
    operationCount := context.operationCount + recorded.operations.length
    added := context.added ++ recorded.operations
    thrown := recorded.failure }

/-- `flushBatch`. An exception leaves the operations behind; nothing looks at them again. -/
def flushBatch : ParseContext O :=
  let maxBatch := if limits.batchSize = 0 then context.operations.length else limits.batchSize
  let flushed := limits.flushLoop maxBatch context.operations.length context.operations
  { context with
    operations := []
    events := context.events ++ flushed.1.map PreviewEvent.batch
    thrown := flushed.2 }

def flushReadyBatch : ParseContext O :=
  if limits.batchSize = 0 ∨ context.operations.length < limits.batchSize then context
  else context.flushBatch limits

def reportProgress (totalBytes bytesRead : ℕ) : ParseContext O :=
  if totalBytes = 0 then context
  else
    { context with
      events := context.events ++ [.progress bytesRead totalBytes context.operationCount] }

def andThen (next : ParseContext O → ParseContext O) : ParseContext O :=
  if context.thrown.isSome then context else next context

def interpret (totalBytes : ℕ) (step : InterpStep O) : ParseContext O :=
  ((context.consume step.toRecorded).andThen fun context =>
    context.flushReadyBatch limits).andThen fun context =>
      match step.reported with
      | none => context
      | some bytesRead => context.reportProgress totalBytes bytesRead

def parseFile (program : PreviewProgram O) : ParseContext O :=
  let started := ({} : ParseContext O).consume program.startup
  let stepped := program.steps.foldl
    (fun context step => context.andThen fun context =>
      context.interpret limits program.totalBytes step) started
  let ended := stepped.andThen fun context => { context with thrown := program.ending }
  ((ended.andThen fun context => context.consume program.closing).andThen fun context =>
    context.flushBatch limits).andThen fun context =>
      context.reportProgress program.totalBytes program.totalBytes

def terminal : PreviewEvent O :=
  match context.thrown with
  | none => .summary context.operationCount
  | some error => .error error

end ParseContext

/-- What the task of `start_preview` sends, in order. -/
def previewEvents {O : Type} (limits : PreviewLimits O) (program : PreviewProgram O) :
    List (PreviewEvent O) :=
  if program.leased then
    let context := ParseContext.parseFile limits program
    context.events ++ [context.terminal]
  else [.error entryMissing]

def addedOperations {O : Type} (limits : PreviewLimits O) (program : PreviewProgram O) : List O :=
  if program.leased then (ParseContext.parseFile limits program).added else []

end LinuxcncCtrl
