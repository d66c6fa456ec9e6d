import LinuxcncCtrl.Lib.Runs
import LinuxcncCtrl.Lib.WordSum

/-! `ProgramWorkspaceStore` of workspace.cc: the table of the published workspaces, their quotas and the
directories on disk. Every operation runs under the mutex of the store. The results of the file operations are
inputs of the calls; a rename either happens or not, and a failed `remove_all` leaves the top directory. -/

namespace LinuxcncCtrl

open Lib

structure WorkspaceLimits where
  maxWorkspaceBytes : UInt64
  maxTotalBytes : UInt64
  ttl : ℕ
  maxWorkspaces : UInt64
  maxEntriesPerWorkspace : UInt64

inductive WorkspacePublishStatus
  | ok
  | invalid
  | resourceExhausted
  | ioError
  deriving DecidableEq

structure Workspace where
  expiresAt : ℕ
  bytes : UInt64
  entries : UInt64
  leases : ℕ := 0
  deriving DecidableEq

def hexDigit (n : Fin 16) : Char :=
  "0123456789abcdef".toList.get n

def opaqueWorkspaceId (random : Fin 32 → Fin 16) : List Char :=
  "workspace-".toList ++ List.ofFn fun index => hexDigit (random index)

def validId (id : List Char) : Bool :=
  "workspace-".toList.isPrefixOf id && id.length == 42 &&
    (id.drop 10).all fun value => ('0' ≤ value && value ≤ '9') || ('a' ≤ value && value ≤ 'f')

inductive RenameOutcome
  | done
  | noSpace
  | failed
  deriving DecidableEq

/-- The arguments of a publish and what its file operations return. `wellPlaced`: there is a place for the id and
the revision is below the staging root. Each draw comes with whether its status could be read. -/
structure PublishRequest where
  wellPlaced : Bool
  isDirectory : Bool
  bytes : UInt64
  entries : UInt64
  draws : List ((Fin 32 → Fin 16) × Bool)
  now : ℕ
  stamped : Bool
  renamed : RenameOutcome

structure WorkspaceStore where
  workspaces : List (List Char × Workspace) := []
  /-- The directories below the root that are named like a workspace. -/
  directories : List Char → Bool := fun _ => false

inductive WorkspaceAction
  | publishRevision (request : PublishRequest)
  | erase (id : List Char) (removed : Bool)
  | pruneExpired (now : ℕ) (removed : List Char → Bool)
  | pinEntry (id : List Char) (now : ℕ) (validPath safe : Bool)
  | unpinEntry (id : List Char)

namespace WorkspaceStore

variable (limits : WorkspaceLimits) (s : WorkspaceStore)

def find (id : List Char) : Option Workspace :=
  (s.workspaces.find? fun entry => entry.1 = id).map Prod.snd

def totalSizeLocked : UInt64 :=
  wordSum (fun entry : List Char × Workspace => entry.2.bytes) s.workspaces

/-- A directory whose status cannot be read counts as absent. -/
def workspaceExists (id : List Char) (readable : Bool) : Bool :=
  s.directories id && readable

/-- The loop that draws ids until one is free; `none` while it goes on. -/
def drawId : List ((Fin 32 → Fin 16) × Bool) → Option (List Char)
  | [] => none
  | (random, readable) :: draws =>
    if s.workspaceExists (opaqueWorkspaceId random) readable then drawId draws
    else some (opaqueWorkspaceId random)

/-- `emplace`, which keeps an entry that is there. -/
def emplace (id : List Char) (workspace : Workspace) : List (List Char × Workspace) :=
  if (s.find id).isSome then s.workspaces else s.workspaces ++ [(id, workspace)]

def publishRevision (request : PublishRequest) :
    Option (WorkspacePublishStatus × Option (List Char) × WorkspaceStore) :=
  if !request.wellPlaced then some (.invalid, none, s)
  else if !request.isDirectory ∨ limits.maxWorkspaceBytes < request.bytes ∨
      limits.maxEntriesPerWorkspace < request.entries then
    some (.invalid, none, s)
  else if limits.maxWorkspaces.toNat ≤ s.workspaces.length ∨ limits.maxTotalBytes < request.bytes ∨
      limits.maxTotalBytes - request.bytes < s.totalSizeLocked then
    some (.resourceExhausted, none, s)
  else
    match s.drawId request.draws with
    | none => none
    | some id =>
      if !request.stamped then some (.ioError, none, s)
      else
        match request.renamed with
        | .noSpace => some (.resourceExhausted, none, s)
        | .failed => some (.ioError, none, s)
        | .done =>
          let workspace : Workspace :=
            { expiresAt := request.now + limits.ttl, bytes := request.bytes, entries := request.entries }
          some (.ok, some id,
            { workspaces := s.emplace id workspace
              directories := Function.update s.directories id true })

def erase (id : List Char) (removed : Bool) : Bool × WorkspaceStore :=
  if !validId id then (false, s)
  else
    match s.find id with
    | none => (false, s)
    | some workspace =>
      if workspace.leases ≠ 0 then (false, s)
      else if !removed then (false, s)
      else
        (true,
          { workspaces := s.workspaces.filter fun entry => entry.1 ≠ id
            directories := Function.update s.directories id false })

/-- An unleased workspace that has expired and whose directory could be removed. -/
def gone (now : ℕ) (removed : List Char → Bool) (entry : List Char × Workspace) : Bool :=
  entry.2.leases == 0 && decide (entry.2.expiresAt ≤ now) && removed entry.1

/-- The loop of `prune_expired`: what is left of the table and of the directories, and how many were removed. -/
def prune (now : ℕ) (removed : List Char → Bool) :
    List (List Char × Workspace) → (List Char → Bool) → List (List Char × Workspace) × (List Char → Bool) × ℕ
  | [], directories => ([], directories, 0)
  | entry :: rest, directories =>
    if gone now removed entry then
      let pruned := prune now removed rest (Function.update directories entry.1 false)
      (pruned.1, pruned.2.1, pruned.2.2 + 1)
    else
      let pruned := prune now removed rest directories
      (entry :: pruned.1, pruned.2)

def pruneExpired (now : ℕ) (removed : List Char → Bool) : ℕ × WorkspaceStore :=
  let pruned := prune now removed s.workspaces s.directories
  (pruned.2.2, { workspaces := pruned.1, directories := pruned.2.1 })

def setLeases (id : List Char) (leases : ℕ → ℕ) : WorkspaceStore :=
  { s with
    workspaces := s.workspaces.map fun entry =>
      if entry.1 = id then (entry.1, { entry.2 with leases := leases entry.2.leases }) else entry }

/-- `safe`: the entry is a regular file and no component of its path is a symlink. -/
def pinEntry (id : List Char) (now : ℕ) (validPath safe : Bool) : Bool × WorkspaceStore :=
  if !validId id ∨ !validPath then (false, s)
  else
    match s.find id with
    | none => (false, s)
    | some workspace =>
      if workspace.expiresAt ≤ now ∨ !safe then (false, s) else (true, s.setLeases id (· + 1))

def unpinEntry (id : List Char) : Bool × WorkspaceStore :=
  match s.find id with
  | none => (false, s)
  | some workspace => if workspace.leases = 0 then (false, s) else (true, s.setLeases id (· - 1))

def step : WorkspaceAction → Option WorkspaceStore
  | .publishRevision request => (s.publishRevision limits request).map fun result => result.2.2
  | .erase id removed => some (s.erase id removed).2
  | .pruneExpired now removed => some (s.pruneExpired now removed).2
  | .pinEntry id now validPath safe => some (s.pinEntry id now validPath safe).2
  | .unpinEntry id => some (s.unpinEntry id).2

/-- The table is the directories on disk, and the quotas are kept. -/
structure Within : Prop where
  nodup : (s.workspaces.map Prod.fst).Nodup
  count : s.workspaces.length ≤ limits.maxWorkspaces.toNat
  total : exactSum (fun entry : List Char × Workspace => entry.2.bytes) s.workspaces ≤ limits.maxTotalBytes.toNat
  each : ∀ entry ∈ s.workspaces, entry.2.bytes ≤ limits.maxWorkspaceBytes ∧
    entry.2.entries ≤ limits.maxEntriesPerWorkspace
  onDisk : ∀ id, s.directories id = true ↔ id ∈ s.workspaces.map Prod.fst

end WorkspaceStore

end LinuxcncCtrl
