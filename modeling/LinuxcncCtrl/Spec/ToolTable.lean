import LinuxcncCtrl.Lib.Runs

/-! The tool table as the task edits it: `emcToolUpdate`, `emcToolDelete` and `emcToolLoadToolTable` with
the snapshots they save, replace and load (patch 0012; the entry itself is in patch 0007). A table is a
function of its index, of which `canonPocketsMax` values are in use. Doubles are opaque values. What the
patches do not show is a field of `ToolLibrary`. -/

namespace LinuxcncCtrl

def canonPocketsMax : ℕ := 1001

def canonToolCommentSize : ℕ := 40

/-- `CANON_TOOL_TABLE`, one entry. Axes are in the order of `pose_axes`; `comment` is the text before the
terminating zero. -/
structure CanonTool (D : Type) where
  toolno : ℤ
  pocketno : ℤ
  offset : Fin 9 → D
  wearOffset : Fin 9 → D
  diameter : D
  frontangle : D
  backangle : D
  orientation : ℤ
  comment : List UInt8
  deriving DecidableEq

structure ToolTable (D : Type) where
  entries : ℕ → CanonTool D
  last : ℕ

/-- The code around the patches. `format` is `tooldata_format_toolline`, `parse` the part of
`tooldata_read_entry` that reads the words of a line, `refusesTaken` says whether it refuses a second tool
for a pocket of a random changer, and `reloadToolNumber` is `reload_tool_number`. -/
structure ToolLibrary (D Line : Type) where
  zero : D
  isFinite : D → Bool
  isNegative : D → Bool
  zero_finite : isFinite zero = true
  zero_notNegative : isNegative zero = false
  format : ℕ → CanonTool D → Line
  parse : Line → Option (CanonTool D)
  refusesTaken : Bool
  reloadToolNumber : Bool → ToolTable D → ℤ → ToolTable D
  reload_random : ∀ table toolno, reloadToolNumber true table toolno = table
  reload_other : ∀ random table toolno idx, idx ≠ 0 →
    (reloadToolNumber random table toolno).entries idx = table.entries idx

section Table

variable {D Line : Type} (library : ToolLibrary D Line)

def ToolLibrary.entryInit : CanonTool D :=
  { toolno := -1
    pocketno := 0
    offset := fun _ => library.zero
    wearOffset := fun _ => library.zero
    diameter := library.zero
    frontangle := library.zero
    backangle := library.zero
    orientation := 0
    comment := [] }

@[mk_iff]
structure CanonTool.Valid (entry : CanonTool D) : Prop where
  pocketno : 0 ≤ entry.pocketno ∧ entry.pocketno < canonPocketsMax
  orientation : 0 ≤ entry.orientation ∧ entry.orientation ≤ 9
  diameter : library.isFinite entry.diameter = true ∧ library.isNegative entry.diameter = false
  angles : library.isFinite entry.frontangle = true ∧ library.isFinite entry.backangle = true
  axes : ∀ axis, library.isFinite (entry.offset axis) = true ∧
    library.isFinite (entry.wearOffset axis) = true

instance (entry : CanonTool D) : Decidable (entry.Valid library) :=
  decidable_of_iff' _ (CanonTool.valid_iff library entry)

namespace ToolTable

variable (table : ToolTable D)

/-- `find_tool`; `none` is -1. -/
def findTool (random : Bool) (toolno : ℤ) : Option ℕ :=
  match (List.range (table.last + 1)).find? fun idx =>
    (table.entries idx).toolno = toolno ∧ (idx ≠ 0 ∨ random) with
  | some idx => some idx
  | none => if (table.entries 0).toolno = toolno then some 0 else none

def Unique (random : Bool) (idx : ℕ) : Prop :=
  ∀ other < table.last + 1, idx < other → 0 ≤ (table.entries other).toolno →
    (table.entries other).toolno ≠ (table.entries idx).toolno ∧
      (random = true → (table.entries other).pocketno ≠ (table.entries idx).pocketno)

instance (random : Bool) (idx : ℕ) : Decidable (table.Unique random idx) :=
  inferInstanceAs (Decidable (∀ other < table.last + 1, _))

def Valid (random : Bool) : Prop :=
  ∀ idx < table.last + 1, (random = true ∨ idx ≠ 0) → 0 ≤ (table.entries idx).toolno →
    (table.entries idx).Valid library ∧ table.Unique random idx

instance (random : Bool) : Decidable (table.Valid library random) :=
  inferInstanceAs (Decidable (∀ idx < table.last + 1, _))

def firstHole : ℕ :=
  ((List.range (table.last + 1)).find? fun idx => idx ≠ 0 ∧ (table.entries idx).toolno < 0).getD
    (table.last + 1)

def trimLast (entries : ℕ → CanonTool D) : ℕ → ℕ
  | 0 => 0
  | last + 1 => if (entries (last + 1)).toolno < 0 then trimLast entries last else last + 1

def lines (random : Bool) : List Line :=
  (List.range (table.last + 1)).filterMap fun idx =>
    if (random = true ∨ idx ≠ 0) ∧ (table.entries idx).toolno ≠ -1 then
      some (library.format idx (table.entries idx))
    else none

end ToolTable

end Table

inductive ToolField
  | pocket | diameter | frontangle | backangle | orientation | comment
  deriving DecidableEq

def ToolField.bit : ToolField → ℕ
  | pocket => 0
  | diameter => 3
  | frontangle => 4
  | backangle => 5
  | orientation => 6
  | comment => 7

/-- `EMC_TOOL_UPDATE`; `comment` is the whole buffer. -/
structure ToolUpdate (D : Type) where
  toolno : ℤ
  pocket : ℤ
  fields : BitVec 32
  offsetAxes : BitVec 32
  wearOffsetAxes : BitVec 32
  offset : Fin 9 → D
  wearOffset : Fin 9 → D
  diameter : D
  frontangle : D
  backangle : D
  orientation : ℤ
  comment : List UInt8

namespace ToolUpdate

variable {D Line : Type} (library : ToolLibrary D Line) (update : ToolUpdate D)

def has (field : ToolField) : Bool := update.fields.getLsbD field.bit

def commentText : List UInt8 := update.comment.takeWhile (· ≠ 0)

@[mk_iff]
structure Accepted : Prop where
  toolno : 0 < update.toolno
  fields : update.fields &&& ~~~0xff#32 = 0#32
  orientation : 0 ≤ update.orientation ∧ update.orientation ≤ 9
  offsetAxes : update.offsetAxes &&& ~~~0x1ff#32 = 0#32
  wearOffsetAxes : update.wearOffsetAxes &&& ~~~0x1ff#32 = 0#32
  comment : 0 ∈ update.comment ∧ 10 ∉ update.commentText ∧ 13 ∉ update.commentText
  diameter : update.has .diameter = true →
    library.isFinite update.diameter = true ∧ library.isNegative update.diameter = false
  frontangle : update.has .frontangle = true → library.isFinite update.frontangle = true
  backangle : update.has .backangle = true → library.isFinite update.backangle = true
  axes : ∀ axis : Fin 9,
    (update.offsetAxes.getLsbD axis = true → library.isFinite (update.offset axis) = true) ∧
      (update.wearOffsetAxes.getLsbD axis = true → library.isFinite (update.wearOffset axis) = true)

instance : Decidable (update.Accepted library) :=
  decidable_of_iff' _ (accepted_iff library update)

def apply (entry : CanonTool D) : CanonTool D :=
  { toolno := update.toolno
    pocketno := if update.has .pocket then update.pocket else entry.pocketno
    offset := fun axis =>
      if update.offsetAxes.getLsbD axis then update.offset axis else entry.offset axis
    wearOffset := fun axis =>
      if update.wearOffsetAxes.getLsbD axis then update.wearOffset axis else entry.wearOffset axis
    diameter := if update.has .diameter then update.diameter else entry.diameter
    frontangle := if update.has .frontangle then update.frontangle else entry.frontangle
    backangle := if update.has .backangle then update.backangle else entry.backangle
    orientation := if update.has .orientation then update.orientation else entry.orientation
    comment :=
      if update.has .comment then update.commentText.take (canonToolCommentSize - 1)
      else entry.comment }

end ToolUpdate

/-- How a `tooldata_save_snapshot` ends: without having touched the file, with the file replaced but the
directory not synced, or well. -/
inductive SaveOutcome
  | failed
  | unsynced
  | saved
  deriving DecidableEq

/-- How the steps around an edit end; `restore` is the save that compensates. -/
structure ToolOutcome where
  snapshot : Bool := true
  save : SaveOutcome := .saved
  replace : Bool := true
  restore : SaveOutcome := .saved

inductive ToolFile (Line : Type)
  | configured
  | other (lines : List Line)
  | unreadable

/-- The part of the task that the tool table depends on. `named` says that `tooltable_filename` is set,
`file` is what it holds. -/
structure ToolTask (D Line : Type) where
  random : Bool
  named : Bool := true
  table : ToolTable D
  file : List Line
  toolInSpindle : ℤ := 0
  pocketPrepped : ℤ := -1
  toolPrepare : Bool := false
  toolPrepIndex : ℤ := 0
  toolChange : Bool := false

inductive ToolRequest (D Line : Type)
  | update (update : ToolUpdate D) (outcome : ToolOutcome)
  | delete (toolno : ℤ) (outcome : ToolOutcome)
  | load (file : ToolFile Line) (replace : Bool)

namespace ToolTask

variable {D Line : Type} (library : ToolLibrary D Line) (task : ToolTask D Line)

def Active (toolno : ℤ) (idx : ℕ) : Prop :=
  toolno = task.toolInSpindle ∨ idx = 0 ∨ (idx : ℤ) = task.pocketPrepped ∨
    (task.toolPrepare = true ∧ (idx : ℤ) = task.toolPrepIndex) ∨ task.toolChange = true

instance (toolno : ℤ) (idx : ℕ) : Decidable (task.Active toolno idx) :=
  inferInstanceAs (Decidable (_ ∨ _ ∨ _ ∨ _ ∨ _))

/-- The pocket of the request cannot be given to the tool, which was found at this index or not at all. -/
def PocketRefused (update : ToolUpdate D) (found : Option ℕ) : Prop :=
  update.pocket ≤ 0 ∨ (canonPocketsMax : ℤ) ≤ update.pocket ∨
    (∃ other ∈ List.range (task.table.last + 1), other ≠ 0 ∧ found ≠ some other ∧
      0 ≤ (task.table.entries other).toolno ∧ (task.table.entries other).pocketno = update.pocket) ∨
    (∃ idx ∈ found, (task.table.entries idx).pocketno ≠ update.pocket ∧
      task.Active update.toolno idx) ∨
    task.random = true ∧ found ≠ some update.pocket.toNat ∧
      0 ≤ (task.table.entries update.pocket.toNat).toolno ∨
    task.random = true ∧ ∃ idx ∈ found, idx ≠ update.pocket.toNat ∧ task.Active update.toolno idx

instance (update : ToolUpdate D) (found : Option ℕ) : Decidable (task.PocketRefused update found) :=
  inferInstanceAs (Decidable (_ ∨ _ ∨ _ ∨ _ ∨ _ ∨ _))

/-- The index the entry goes to; `none` when the request is refused. -/
def destination (update : ToolUpdate D) (found : Option ℕ) : Option ℕ :=
  if found = none ∧ update.has .pocket = false then none
  else if update.has .pocket = true ∧ task.PocketRefused update found then none
  else
    let destination :=
      if task.random = true ∧ update.has .pocket = true then update.pocket.toNat
      else found.getD task.table.firstHole
    if canonPocketsMax ≤ destination ∨ destination = 0 ∧ ¬ (task.random = true ∧ found = some 0) then none
    else some destination

def place (update : ToolUpdate D) (found : Option ℕ) (destination : ℕ) : ToolTable D :=
  let old := found.elim library.entryInit task.table.entries
  let entry := update.apply old
  let vacated := found.elim task.table.entries fun idx =>
    if idx ≠ destination then Function.update task.table.entries idx library.entryInit
    else task.table.entries
  let placed := Function.update vacated destination entry
  { entries :=
      if task.random = false ∧ task.toolInSpindle = update.toolno then Function.update placed 0 entry
      else placed
    last := max task.table.last destination }

/-- The table that `emcToolUpdate` goes on to save; `none` when it refuses the request. -/
def updateTable (update : ToolUpdate D) : Option (ToolTable D) :=
  if task.named = true ∧ update.Accepted library then
    let found := task.table.findTool task.random update.toolno
    (task.destination update found).map fun destination =>
      task.place library update found destination
  else none

def DeleteRefused (idx : ℕ) : Prop :=
  idx = 0 ∨ (idx : ℤ) = task.pocketPrepped ∨
    (task.toolPrepare = true ∧ (idx : ℤ) = task.toolPrepIndex) ∨ task.toolChange = true

instance (idx : ℕ) : Decidable (task.DeleteRefused idx) :=
  inferInstanceAs (Decidable (_ ∨ _ ∨ _ ∨ _))

/-- The table that `emcToolDelete` goes on to save; `none` when it refuses the request. -/
def deleteTable (toolno : ℤ) : Option (ToolTable D) :=
  if task.named = true ∧ 0 < toolno ∧ toolno ≠ task.toolInSpindle then
    match task.table.findTool task.random toolno with
    | none => none
    | some idx =>
      if task.DeleteRefused idx then none
      else
        let entries := Function.update task.table.entries idx library.entryInit
        some ⟨entries, ToolTable.trimLast entries task.table.last⟩
  else none

def saveSnapshot (outcome : SaveOutcome) (table : ToolTable D) : ToolTask D Line × Bool :=
  if task.named = false ∨ canonPocketsMax ≤ table.last then (task, false)
  else
    match outcome with
    | .failed => (task, false)
    | .unsynced => ({ task with file := table.lines library task.random }, false)
    | .saved => ({ task with file := table.lines library task.random }, true)

def replaceTable (replace : Bool) (table : ToolTable D) : ToolTask D Line × Bool :=
  if replace = false ∨ canonPocketsMax ≤ table.last then (task, false)
  else ({ task with table }, true)

def commit (outcome : ToolOutcome) (table : ToolTable D) : ToolTask D Line × Bool :=
  let (saved, ok) := task.saveSnapshot library outcome.save table
  if ok = false then ((saved.saveSnapshot library outcome.restore task.table).1, false)
  else
    let (replaced, ok) := saved.replaceTable outcome.replace table
    if ok = false then ((replaced.saveSnapshot library outcome.restore task.table).1, false)
    else (replaced, true)

def edit (outcome : ToolOutcome) (table : Option (ToolTable D)) : ToolTask D Line × Bool :=
  match table with
  | none => (task, false)
  | some table => if outcome.snapshot then task.commit library outcome table else (task, false)

def emcToolUpdate (update : ToolUpdate D) (outcome : ToolOutcome) : ToolTask D Line × Bool :=
  task.edit library outcome (task.updateTable library update)

def emcToolDelete (toolno : ℤ) (outcome : ToolOutcome) : ToolTask D Line × Bool :=
  task.edit library outcome (task.deleteTable library toolno)

def lineIndex (random : Bool) (entry : CanonTool D) (next : ℕ) : ℕ :=
  if random then entry.pocketno.toNat else next

/-- `tooldata_read_entry` into the staged table, for the line that would get index `next` in a changer that
is not random. A line whose index is out of range is not accepted. -/
def readEntry (random : Bool) (staged : ToolTable D) (next : ℕ) (line : Line) : Option (ToolTable D) :=
  match library.parse line with
  | none => none
  | some entry =>
    let idx := lineIndex random entry next
    if canonPocketsMax ≤ idx ∨ random = true ∧ entry.pocketno < 0 then none
    else if random = true ∧ (staged.entries idx).toolno ≠ -1 ∧ library.refusesTaken = true then none
    else
      let entries := Function.update staged.entries idx entry
      some
        { entries :=
            if random = false ∧ (entries 0).toolno = entry.toolno then Function.update entries 0 entry
            else entries
          last := max staged.last idx }

def readEntries (random : Bool) : ToolTable D → ℕ → List Line → Option (ToolTable D)
  | staged, _, [] => some staged
  | staged, next, line :: lines =>
    (readEntry library random staged next line).bind fun staged =>
      readEntries random staged (next + 1) lines

def loadSnapshot (file : ToolFile Line) : Option (ToolTable D) :=
  let empty : ToolTable D := ⟨fun _ => library.entryInit, 0⟩
  match file with
  | .configured =>
    if task.named then readEntries library task.random empty 1 task.file else none
  | .other lines => readEntries library task.random empty 1 lines
  | .unreadable => none

def emcToolLoadToolTable (file : ToolFile Line) (replace : Bool) : ToolTask D Line × Bool :=
  if task.toolPrepare = true ∨ task.toolChange = true then (task, false)
  else
    match task.loadSnapshot library file with
    | none => (task, false)
    | some loaded =>
      if ¬ loaded.Valid library task.random ∨
          0 < task.toolInSpindle ∧ loaded.findTool task.random task.toolInSpindle = none then
        (task, false)
      else
        let (replaced, ok) := task.replaceTable replace loaded
        if ok = false then (replaced, false)
        else
          ({ replaced with
            table := library.reloadToolNumber task.random loaded task.toolInSpindle }, true)

def step : ToolRequest D Line → Option (ToolTask D Line)
  | .update update outcome => some (task.emcToolUpdate library update outcome).1
  | .delete toolno outcome => some (task.emcToolDelete library toolno outcome).1
  | .load file replace => some (task.emcToolLoadToolTable library file replace).1

/-- What every table should keep: it is valid, it is empty behind its last index, in a random changer each
tool is at the index of its pocket, and in another index 0 is empty or mirrors the tool in the spindle. -/
structure Sound (table : ToolTable D) : Prop where
  last : table.last < canonPocketsMax
  valid : table.Valid library task.random
  beyond : ∀ idx, table.last < idx → (table.entries idx).toolno < 0
  pockets : task.random = true → ∀ idx, 0 ≤ (table.entries idx).toolno →
    (table.entries idx).pocketno = idx
  mirror : task.random = false → 0 ≤ (table.entries 0).toolno →
    (table.entries 0).toolno = task.toolInSpindle ∧
      ∃ idx, idx ≠ 0 ∧ table.entries idx = table.entries 0

/-- The table differs only where the named tool was or is: such an index was free or the tool's own, and
index 0 of a changer that is not random is touched only when the tool is in the spindle. -/
def OnlyTool (toolno : ℤ) (table : ToolTable D) : Prop :=
  ∀ idx, table.entries idx = task.table.entries idx ∨
    ((task.table.entries idx).toolno = toolno ∨ (task.table.entries idx).toolno < 0) ∧
      ((table.entries idx).toolno = toolno ∨ (table.entries idx).toolno < 0) ∧
      (idx = 0 → task.random = false → task.toolInSpindle = toolno)

/-- What an edit of a tool that goes on with this table, or with none, may do to the task. -/
structure Edited (outcome : ToolOutcome) (toolno : ℤ) (wanted : Option (ToolTable D))
    (result : ToolTask D Line × Bool) : Prop where
  success : result.2 = true → ∃ table, wanted = some table ∧ result.1.table = table ∧
    task.Sound library table ∧ task.OnlyTool toolno table
  failure : result.2 = false → result.1.table = task.table ∧
    (wanted = none → result.1.file = task.file) ∧
    (outcome.snapshot = true → wanted ≠ none → outcome.restore = .saved →
      result.1.file = task.table.lines library task.random)

def fileLines : ToolFile Line → List Line
  | .configured => task.file
  | .other lines => lines
  | .unreadable => []

/-- The request leaves the tool at the prepared index alone, as far as the request and the table tell. The
index is in use; index 0 of a changer that is not random has the tool in the spindle; and a file that is
loaded has the tool on the line that belongs to the index. -/
def KeepsPrepared (toolno : ℤ) : ToolRequest D Line → Prop
  | .update .. => task.pocketPrepped ≤ task.table.last ∧
    (task.random = false → task.pocketPrepped = 0 → task.toolInSpindle = toolno)
  | .delete .. => True
  | .load file _ =>
    let read := (task.fileLines file).filterMap library.parse
    if task.random = true then
      (∃ entry ∈ read, entry.pocketno = task.pocketPrepped) ∧
        ∀ entry ∈ read, entry.pocketno = task.pocketPrepped → entry.toolno = toolno
    else
      0 < task.pocketPrepped ∧
        ∃ entry, read[task.pocketPrepped.toNat - 1]? = some entry ∧ entry.toolno = toolno

end ToolTask

end LinuxcncCtrl
