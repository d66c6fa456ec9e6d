import LinuxcncCtrl.Lib.Runs

/-! The active program of `service.cc`, `workspace.cc` and `directory_transaction.cc`: the symlink
LinuxCNC reads programs through, the workspace leases that keep its target from being removed, and
the life of every ProgramOpen and ProgramClose from admission to the destruction of its closures.
Opens are admitted and staged on the filesystem thread, commands are prepared and written by the command
worker in submission order, and the status thread resolves them, also in submission order. The two renames
of a transaction are atomic and succeed.

The threads interleave between critical sections. The activation mutex protects the active workspace and
the admission flag, the mutex of the store protects the leases; the link is under neither. A completion
releases the recovered leases before it takes the activation mutex, and that of a close clears the link
after it has given it back. An observation holds it all along, but against the worker, which renames, and
the store, which removes, each of its parts is a step of its own. -/

namespace LinuxcncCtrl

open Lib

/-- Where a program link points: the empty directory or a workspace. -/
inductive ActiveLink (W : Type)
  | empty
  | workspace (w : W)
  deriving DecidableEq

def ActiveLink.target {W : Type} : ActiveLink W → List W
  | .empty => []
  | .workspace w => [w]

inductive TransactionState
  | staged | committed | completed | rolledBack
  deriving DecidableEq

/-- A `DirectoryTransaction` on the active link; `staging` is the target of its sibling link. -/
structure DirectoryTransaction (W : Type) where
  staging : ActiveLink W
  state : TransactionState := .staged
  deriving DecidableEq

namespace DirectoryTransaction

variable {W : Type} (t : DirectoryTransaction W) (link : ActiveLink W)

/-- Both renames exchange the active link with the staging link. -/
def commit : DirectoryTransaction W × ActiveLink W :=
  if t.state = .staged then (⟨link, .committed⟩, t.staging) else (t, link)

def complete : DirectoryTransaction W :=
  if t.state = .committed then { t with state := .completed } else t

def rollback : DirectoryTransaction W × ActiveLink W :=
  if t.state = .committed then (⟨link, .rolledBack⟩, t.staging) else (t, link)

end DirectoryTransaction

structure OpenRequest (W : Type) where
  workspace : W
  pinned : Bool := false
  deriving DecidableEq

structure OpenCommand (W : Type) where
  workspace : W
  revision : DirectoryTransaction W
  release : Bool := true
  deriving DecidableEq

inductive ProgramCommand (W : Type)
  | programOpen (o : OpenCommand W)
  | programClose
  deriving DecidableEq

def ProgramCommand.open? {W : Type} : ProgramCommand W → Option (OpenCommand W)
  | .programOpen o => some o
  | .programClose => none

def ProgramCommand.opens {W : Type} (commands : List (ProgramCommand W)) : List (OpenCommand W) :=
  commands.filterMap (·.open?)

/-- How the worker's turn of a command ends: cancelled before it was prepared, failed after, or
written and handed to the completion tracker. -/
inductive WorkerOutcome
  | cancelled | failed | tracked
  deriving DecidableEq

/-- Where the status thread is. `completing`: in `on_completed` of the first tracked command, with the
recovered leases released. `observing`: in an observation, with them released; `released` says that there
were some. `clearing`: about to clear the link, `locked` when it holds the activation mutex. -/
inductive StatusThread
  | idle
  | completing
  | observing (released : Bool)
  | clearing (locked : Bool)
  deriving DecidableEq

/-- The status thread holds the activation mutex between two steps. -/
def StatusThread.holdsMutex : StatusThread → Bool
  | .idle | .completing => false
  | .observing _ => true
  | .clearing locked => locked

/-- Every open is in exactly one place: among the `requests`, in the command `queue`, `tracked` until
LinuxCNC answers, or `resolved` with its lease still alive. -/
structure ProgramState (W : Type) where
  link : ActiveLink W
  /-- The lease count of every workspace in the store. -/
  leases : W → Option ℕ
  recovered : List W
  active : Option W := none
  opening : Bool := false
  requests : List (OpenRequest W) := []
  queue : List (ProgramCommand W) := []
  tracked : List (ProgramCommand W) := []
  resolved : List (OpenCommand W) := []
  status : StatusThread := .idle
  /-- Leases of running previews, which are taken and returned elsewhere. -/
  previews : W → ℕ := fun _ => 0

inductive ProgramAction (W : Type)
  | admitOpen (w : W)
  | pin (index : ℕ) (found : Bool)
  | abandon (index : ℕ)
  | submitOpen (index : ℕ)
  | submitClose
  | prepare
  | worker (outcome : WorkerOutcome)
  | releaseRecoveredLeases
  | resolve (completed : Bool)
  | dropLease (index : ℕ)
  | observeStatus (fileEmpty : Bool)
  | dropActive
  | clearActiveLink
  | publishRevision (w : W)
  | erase (w : W)
  | pruneExpired (removed : W → Bool)
  | startPreview (w : W)
  | endPreview (w : W)

section Store

variable {W : Type} [DecidableEq W]

def pinEntry (leases : W → Option ℕ) (w : W) : W → Option ℕ :=
  Function.update leases w ((leases w).map (· + 1))

/-- A count of zero stays there, as `unpin_entry` then refuses. -/
def unpinEntry (leases : W → Option ℕ) (w : W) : W → Option ℕ :=
  Function.update leases w ((leases w).map (· - 1))

def releaseRecoveredLeases (recovered : List W) (leases : W → Option ℕ) : W → Option ℕ :=
  fun w => if w ∈ recovered then (leases w).map (· - 1) else leases w

end Store

namespace ProgramState

variable {W : Type} [DecidableEq W] (s : ProgramState W)

/-- The destructor of a `PendingWorkspaceLease`. -/
def destroyLease (workspace : W) (release : Bool) : ProgramState W :=
  { s with
    opening := false
    leases := if release then unpinEntry s.leases workspace else s.leases }

/-- `prepare` of an open commits its transaction. The command stays with the worker, which then writes it. -/
def prepareOpen (o : OpenCommand W) (rest : List (ProgramCommand W)) : ProgramState W :=
  let committed := o.revision.commit s.link
  { s with
    link := committed.2
    queue := .programOpen { o with revision := committed.1 } :: rest }

/-- The end of the worker's turn of an open; a command that is not handed on is rolled back. -/
def workOpen (o : OpenCommand W) : WorkerOutcome → ProgramState W
  | .cancelled | .failed =>
    let rolledBack := o.revision.rollback s.link
    { s with
      link := rolledBack.2
      resolved := s.resolved ++ [{ o with revision := rolledBack.1 }] }
  | .tracked => { s with tracked := s.tracked ++ [.programOpen o] }

def releaseRecovered : ProgramState W :=
  { s with recovered := [], leases := releaseRecoveredLeases s.recovered s.leases }

def releaseActive : ProgramState W :=
  { s with
    active := none
    leases := match s.active with
      | some previous => unpinEntry s.leases previous
      | none => s.leases }

/-- What `on_completed` of an open does under the activation mutex: its lease becomes the active one, unless
the workspace already is. -/
def openCompleted (o : OpenCommand W) : ProgramState W :=
  let completed := { o with revision := o.revision.complete }
  if s.active = some o.workspace then
    { s with
      opening := false
      status := .idle
      resolved := s.resolved ++ [{ completed with release := true }] }
  else
    { s.releaseActive with
      opening := false
      status := .idle
      active := some o.workspace
      resolved := s.resolved ++ [{ completed with release := false }] }

/-- `on_failed` of an open; the admission flag waits for the lease. -/
def openFailed (o : OpenCommand W) : ProgramState W :=
  let rolledBack := o.revision.rollback s.link
  { s with
    link := rolledBack.2
    resolved := s.resolved ++ [{ o with revision := rolledBack.1 }] }

/-- What `on_completed` of a close does under the activation mutex; the link is cleared later. -/
def closeCompleted : ProgramState W :=
  { s.releaseActive with status := .clearing false }

/-- The start of an observation. With a file open, or an open pending, it leaves the leases alone. -/
def observeStatus (fileEmpty : Bool) : ProgramState W :=
  if fileEmpty ∧ !s.opening then { s.releaseRecovered with status := .observing (s.recovered ≠ []) } else s

/-- The rest of an observation but for the link. -/
def dropActive (released : Bool) : ProgramState W :=
  { s.releaseActive with status := if released ∨ s.active.isSome then .clearing true else .idle }

/-- A refused admission (`a program open is already pending`) changes nothing and is no step. -/
def step (s : ProgramState W) : ProgramAction W → Option (ProgramState W)
  | .admitOpen w =>
    if s.opening ∨ s.status.holdsMutex then none
    else some { s with opening := true, requests := s.requests ++ [{ workspace := w }] }
  | .pin index found =>
    match s.requests[index]? with
    | some request =>
      if request.pinned then none
      else if found then
        if (s.leases request.workspace).isSome then
          some { s with
            leases := pinEntry s.leases request.workspace
            requests := s.requests.set index { request with pinned := true } }
        else none
      else if s.status.holdsMutex then none
      else some { s with opening := false, requests := s.requests.eraseIdx index }
    | none => none
  -- the path is too long, staging or validation fails, or the command queue is full
  | .abandon index =>
    match s.requests[index]? with
    | some request =>
      if request.pinned ∧ !s.status.holdsMutex then
        some { s.destroyLease request.workspace true with requests := s.requests.eraseIdx index }
      else none
    | none => none
  | .submitOpen index =>
    match s.requests[index]? with
    | some request =>
      if request.pinned then
        let o : OpenCommand W :=
          { workspace := request.workspace, revision := { staging := .workspace request.workspace } }
        some { s with
          requests := s.requests.eraseIdx index
          queue := s.queue ++ [.programOpen o] }
      else none
    | none => none
  | .submitClose => some { s with queue := s.queue ++ [.programClose] }
  | .prepare =>
    match s.queue with
    | .programOpen o :: rest => if o.revision.state = .staged then some (s.prepareOpen o rest) else none
    | _ => none
  | .worker outcome =>
    match s.queue with
    | [] => none
    | .programOpen o :: rest =>
      -- an open is cancelled before it is prepared, or never
      if o.revision.state = .staged ↔ outcome = .cancelled then some { s.workOpen o outcome with queue := rest }
      else none
    | .programClose :: rest =>
      some { s with
        queue := rest
        tracked := if outcome = .tracked then s.tracked ++ [.programClose] else s.tracked }
  | .releaseRecoveredLeases =>
    if s.status = .idle ∧ s.tracked ≠ [] then some { s.releaseRecovered with status := .completing } else none
  | .resolve true =>
    if s.status = .completing then
      match s.tracked with
      | [] => none
      | .programOpen o :: rest => some { s.openCompleted o with tracked := rest }
      | .programClose :: rest => some { s.closeCompleted with tracked := rest }
    else none
  | .resolve false =>
    if s.status = .idle then
      match s.tracked with
      | [] => none
      | .programOpen o :: rest => some { s.openFailed o with tracked := rest }
      | .programClose :: rest => some { s with tracked := rest }
    else none
  | .dropLease index =>
    match s.resolved[index]? with
    | some o =>
      if s.status.holdsMutex then none
      else some { s.destroyLease o.workspace o.release with resolved := s.resolved.eraseIdx index }
    | none => none
  | .observeStatus fileEmpty => if s.status = .idle then some (s.observeStatus fileEmpty) else none
  | .dropActive =>
    match s.status with
    | .observing released => some (s.dropActive released)
    | _ => none
  | .clearActiveLink =>
    match s.status with
    | .clearing _ => some { s with link := .empty, status := .idle }
    | _ => none
  | .publishRevision w =>
    if s.leases w = none then some { s with leases := Function.update s.leases w (some 0) }
    else none
  | .erase w =>
    if s.leases w = some 0 then some { s with leases := Function.update s.leases w none } else none
  -- `removed`: the workspace has expired and its directory could be removed
  | .pruneExpired removed =>
    some { s with leases := fun w => if removed w ∧ s.leases w = some 0 then none else s.leases w }
  | .startPreview w =>
    if (s.leases w).isSome then
      some { s with
        leases := pinEntry s.leases w
        previews := Function.update s.previews w (s.previews w + 1) }
    else none
  | .endPreview w =>
    if 0 < s.previews w then
      some { s with
        leases := unpinEntry s.leases w
        previews := Function.update s.previews w (s.previews w - 1) }
    else none

/-- A state the store's constructor can leave behind: each recovered workspace has its one lease,
and the link points at the empty directory or at a recovered workspace. -/
structure Startup (s : ProgramState W) : Prop where
  active : s.active = none
  opening : s.opening = false
  requests : s.requests = []
  queue : s.queue = []
  tracked : s.tracked = []
  resolved : s.resolved = []
  status : s.status = .idle
  previews : ∀ w, s.previews w = 0
  leases : ∀ w, (s.leases w).getD 0 = if w ∈ s.recovered then 1 else 0
  link : s.link = .empty ∨ ∃ w ∈ s.recovered, s.link = .workspace w

def queuedOpens (s : ProgramState W) : List (OpenCommand W) :=
  ProgramCommand.opens s.queue

def trackedOpens (s : ProgramState W) : List (OpenCommand W) :=
  ProgramCommand.opens s.tracked

def pendingOpens (s : ProgramState W) : ℕ :=
  s.requests.length + s.queuedOpens.length + s.trackedOpens.length

/-- The opens that have put their workspace behind the link and are not answered. -/
def committedOpens (s : ProgramState W) : List (OpenCommand W) :=
  (s.queuedOpens ++ s.trackedOpens).filter (·.revision.state = .committed)

/-- The workspaces behind the link, or behind it again after a rollback. -/
def reached (s : ProgramState W) : List W :=
  s.link.target ++ s.committedOpens.flatMap fun o => o.revision.staging.target

/-- The link, the active workspace and the leases agree. A workspace behind the link has a lease but for the
time that the status thread needs to clear it, and in that time it is still in the store. -/
def Agrees (s : ProgramState W) : Prop :=
  (∀ w, s.active = some w → s.link = .workspace w ∧ 0 < (s.leases w).getD 0) ∧
    ∀ w, s.link = .workspace w → (s.leases w).isSome ∧ (s.status = .idle → 0 < (s.leases w).getD 0)

/-- The lease of a resolved open is not destroyed while another open is pending. -/
def LeaseInTime (s : ProgramState W) : ProgramAction W → Prop
  | .dropLease _ => s.pendingOpens = 0
  | _ => True

instance (s : ProgramState W) (a : ProgramAction W) : Decidable (s.LeaseInTime a) := by
  cases a <;> dsimp only [LeaseInTime] <;> infer_instance

/-- The link is not cleared while an open is committed and unanswered, and what it points at is not removed
while the status thread is about to clear it. -/
def ClearInOrder (s : ProgramState W) : ProgramAction W → Prop
  | .clearActiveLink => s.committedOpens = []
  | .erase w => s.status ≠ .idle → w ∉ s.reached
  | .pruneExpired removed => s.status ≠ .idle → ∀ w ∈ s.reached, removed w = false
  | _ => True

instance (s : ProgramState W) (a : ProgramAction W) : Decidable (s.ClearInOrder a) := by
  cases a <;> dsimp only [ClearInOrder] <;> infer_instance

/-- The side condition of a serialized run. -/
def Serialized (s : ProgramState W) (a : ProgramAction W) : Prop :=
  s.LeaseInTime a ∧ s.ClearInOrder a

instance (s : ProgramState W) (a : ProgramAction W) : Decidable (s.Serialized a) :=
  inferInstanceAs (Decidable (_ ∧ _))

end ProgramState

end LinuxcncCtrl
