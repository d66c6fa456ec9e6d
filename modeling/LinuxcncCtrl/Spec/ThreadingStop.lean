import LinuxcncCtrl.Lib.Runs

/-! The coordinated planner of `tp.c` under a Stop and a Single Step, as the threading patches leave
it: the stop and step targets, `tpPause`, `tpResume`, `tpAddSegmentToQueue`, `tpCompleteSegment`,
`tpRunCycle`, and the motion commands that call them.

The planner that the patches extend is not part of the sources. What it decides in one servo cycle
(whether the segment at the head of the queue is activated, advances, runs into the next one, is
complete) is the input `PlannerCycle` of that cycle, and `PlannerCycle.Sound` states what the
development takes from it. A segment's `slot` stands for the address of its `TC_STRUCT`; `progressed`
says that it has left its start. Final velocities, the optimizer and reverse run are left out. -/

namespace LinuxcncCtrl

inductive TcSync
  | none | velocity | position
  deriving DecidableEq

inductive TcTermCond
  | stop | exact | parabolic | tangent
  deriving DecidableEq

/-- A motion as the task hands it to the planner; `incId` is false for a blend arc. -/
structure Move where
  synchronized : TcSync := .none
  g76PassId : ℤ := 0
  /-- 1: clearance retract, 2: approach endpoint -/
  g76PassClearance : ℤ := 0
  termCond : TcTermCond := .tangent
  incId : Bool := true

structure Tc where
  slot : ℕ
  id : ℤ
  active : Bool := false
  progressed : Bool := false
  synchronized : TcSync
  g76PassId : ℤ
  g76PassClearance : ℤ
  termCond : TcTermCond

/-- `TP_STRUCT`; `waitingForIndex` is `spindle.waiting_for_index`, `none` for `MOTION_INVALID_ID`. -/
structure Tp where
  queue : List Tc := []
  pausing : Bool := false
  stopping : Bool := false
  stopTc : Option ℕ := none
  stopTargetPending : Bool := false
  stopPassId : ℤ := 0
  stepTc : Option ℕ := none
  stepTargetPending : Bool := false
  stepPassId : ℤ := 0
  stepMotionId : ℤ := 0
  steppingToMotionTarget : Bool := false
  stepTargetTermCond : TcTermCond := .stop
  stepTargetOverridden : Bool := false
  waitingForIndex : Option ℤ := none

namespace Tp

def setTermCond (queue : List Tc) (slot : ℕ) (termCond : TcTermCond) : List Tc :=
  queue.map fun tc => if tc.slot = slot then { tc with termCond } else tc

def tpFindG76PassClearance (tp : Tp) (passId : ℤ) : Option Tc :=
  if passId = 0 then none
  else tp.queue.find? fun candidate =>
    decide (candidate.g76PassId = passId) && decide (candidate.g76PassClearance = 1)

def tpFindG76StepTarget (tp : Tp) (passId : ℤ) : Option Tc :=
  (tp.queue.takeWhile fun candidate => decide (candidate.g76PassId = passId)).find?
    fun candidate => decide (candidate.g76PassClearance ≠ 0)

def tpGetQueuedG76PassId (tp : Tp) : ℤ :=
  match tp.queue.head? with
  | some tc => tc.g76PassId
  | none => 0

def tpFindSourceBlockTarget (tp : Tp) (motionId : ℤ) : Option Tc :=
  (tp.queue.takeWhile fun candidate => decide (candidate.id = motionId)).getLast?

def tpRestoreStepTarget (tp : Tp) : Tp :=
  match tp.stepTargetOverridden && tp.stepTargetPending, tp.stepTc with
  | true, some slot =>
    { tp with
      queue := setTermCond tp.queue slot tp.stepTargetTermCond
      stepTargetOverridden := false }
  | _, _ => { tp with stepTargetOverridden := false }

/-- The `pausing` of `tpGetFeedScale`: the segment is given feed scale zero. -/
def holds (tp : Tp) (tc : Tc) : Bool :=
  (tp.pausing && (decide (tc.synchronized = .none) || decide (tc.synchronized = .velocity))) ||
    (tp.stopping && !tp.stopTargetPending)

def inG76CutOrClearance (tp : Tp) (tc : Tc) : Bool :=
  decide (tc.g76PassId ≠ 0) &&
    ((tc.active && decide (tc.synchronized = .position) &&
      decide (tp.waitingForIndex ≠ some tc.id)) || decide (tc.g76PassClearance = 1))

def stopInPlace (tp : Tp) : Tp :=
  { tp with stopPassId := 0, stopTc := none, stopTargetPending := false, pausing := true }

def tpPauseStopping (tp : Tp) : Tp :=
  let tp :=
    { tp.tpRestoreStepTarget with
      stepTc := none
      stepTargetPending := false
      stepPassId := 0
      stepMotionId := 0
      steppingToMotionTarget := false }
  match tp.queue.head? with
  | some tc =>
    if tp.inG76CutOrClearance tc then
      { tp with
        stopPassId := tc.g76PassId
        stopTc := (tp.tpFindG76PassClearance tc.g76PassId).map Tc.slot
        stopTargetPending := true
        pausing := false }
    else if tc.active = true ∧ tc.g76PassId = 0 ∧ tc.synchronized = .position then
      { tp with stopPassId := 0, stopTc := some tc.slot, stopTargetPending := true, pausing := false }
    else tp.stopInPlace
  | none => tp.stopInPlace

def tpPauseStepping (tp : Tp) : Tp :=
  let passId := tp.tpGetQueuedG76PassId
  if passId ≠ 0 then
    { tp with
      stepPassId := passId
      stepMotionId := 0
      stepTc := (tp.tpFindG76StepTarget passId).map Tc.slot
      stepTargetPending := true
      pausing := false }
  else
    let motionId := (tp.queue.head?.map Tc.id).getD 0
    match tp.tpFindSourceBlockTarget motionId with
    | some target =>
      { tp with
        queue := setTermCond tp.queue target.slot .stop
        stepPassId := 0
        stepMotionId := motionId
        stepTc := some target.slot
        stepTargetPending := true
        stepTargetTermCond := target.termCond
        stepTargetOverridden := true
        pausing := false }
    | none =>
      { tp with
        stepPassId := 0
        stepMotionId := motionId
        stepTc := none
        stepTargetPending := false
        pausing := true }

def tpPause (tp : Tp) (stepping : Bool) : Tp :=
  if tp.stopping then tp.tpPauseStopping
  else if stepping && tp.steppingToMotionTarget then tp.tpPauseStepping
  else { tp with pausing := true }

/-- The planner's part of `tpResume`. -/
def resumed (tp : Tp) : Tp :=
  { tp.tpRestoreStepTarget with
    pausing := false
    stopping := false
    stopTc := none
    stopTargetPending := false
    stopPassId := 0
    stepTc := none
    stepTargetPending := false
    stepPassId := 0
    stepMotionId := 0
    steppingToMotionTarget := false
    stepTargetTermCond := .stop }

/-- `tpAddSegmentToQueue`; `none` is `TP_ERR_FAIL`. -/
def tpAddSegmentToQueue (tp : Tp) (tc : Tc) (incId : Bool) : Option Tp :=
  if incId = true ∧ tp.stopping = true ∧ tp.stopTargetPending = true ∧ tp.stopPassId ≠ 0 ∧
      tp.stopTc = none ∧ tc.g76PassId ≠ tp.stopPassId then none
  else if incId = true ∧ tp.steppingToMotionTarget = true ∧ tp.stepTargetPending = true ∧
      tp.stepPassId ≠ 0 ∧ tp.stepTc = none ∧ tc.g76PassId ≠ tp.stepPassId then none
  else
    some { tp with
      queue := tp.queue ++ [tc]
      stopTc :=
        if tc.g76PassClearance = 1 ∧ tp.stopping = true ∧ tp.stopTargetPending = true ∧
            tp.stopTc = none ∧ tc.g76PassId = tp.stopPassId then some tc.slot
        else tp.stopTc
      stepTc :=
        if tc.g76PassClearance ≠ 0 ∧ tp.steppingToMotionTarget = true ∧
            tp.stepTargetPending = true ∧ tp.stepTc = none ∧ tc.g76PassId = tp.stepPassId then
          some tc.slot
        else tp.stepTc }

/-- What adding a segment does to the one queued before it: `handleModeChange` and
`tpHandleBlendArc` keep a marked clearance an exact endpoint, otherwise the blend is the base
planner's. -/
def blendPrevious (tp : Tp) (blend : TcTermCond) : Tp :=
  match tp.queue.getLast? with
  | some prev =>
    { tp with
      queue := setTermCond tp.queue prev.slot (if prev.g76PassClearance = 1 then .stop else blend) }
  | none => tp

def tpCompleteSegment (tp : Tp) (tc : Tc) : Tp :=
  let tp :=
    if tp.stopping = true ∧ tp.stopTargetPending = true ∧ tp.stopTc = some tc.slot then
      { tp with stopTargetPending := false, stopTc := none, stopPassId := 0 }
    else tp
  let tp :=
    if tp.steppingToMotionTarget = true ∧ tp.stepTargetPending = true ∧
        tp.stepTc = some tc.slot then
      { tp with stepTargetPending := false, stepTc := none, stepTargetOverridden := false }
    else tp
  { tp with queue := tp.queue.tail }

end Tp

/-- What the base planner does with the head of the queue in one servo cycle. -/
structure PlannerCycle where
  /-- `fabs(emcmotStatus->current_vel) < TP_VEL_EPSILON` as the cycle begins -/
  atRest : Bool := false
  activates : Bool := false
  moves : Bool := false
  /-- the cycle carries the motion on into the next queued segment -/
  spills : Bool := false
  completes : Bool := false
  waitingForIndex : Option ℤ := none

/-- Coordinated motion: the planner, the fields of `emcmotStatus` and `emcmotInternal` it shares with
the command handler, and the segments completed so far. `failed` is set when a motion is refused. -/
structure CoordMotion where
  tp : Tp := {}
  stepping : Bool := false
  paused : Bool := false
  stopped : Bool := false
  spindleIndexEnable : Bool := false
  idForStep : ℤ := 0
  completed : List ℕ := []
  failed : Bool := false

inductive MotionAction
  | deliver (nextId : ℤ) (blend : TcTermCond)
  | runCycle (cycle : PlannerCycle)
  | outputToHal (atRest : Bool)
  | updateStatus (execId : ℤ)
  | stop
  | resume
  | step (execId : ℤ)

namespace CoordMotion

def delivered (m : CoordMotion) : ℕ := m.completed.length + m.tp.queue.length

def tpResume (m : CoordMotion) : CoordMotion :=
  { m with
    tp := m.tp.resumed
    spindleIndexEnable := m.tp.waitingForIndex.isSome || m.spindleIndexEnable
    stopped := false }

def newSegment (m : CoordMotion) (move : Move) (nextId : ℤ) : Tc :=
  { slot := m.delivered
    id := nextId
    synchronized := move.synchronized
    g76PassId := move.g76PassId
    g76PassClearance := move.g76PassClearance
    termCond := if move.g76PassClearance = 1 then .stop else move.termCond }

def tpAddLine (m : CoordMotion) (move : Move) (nextId : ℤ) (blend : TcTermCond) : CoordMotion :=
  match (m.tp.blendPrevious blend).tpAddSegmentToQueue (m.newSegment move nextId) move.incId with
  | some tp => { m with tp }
  | none => { m with tp := m.tp.blendPrevious blend, failed := true }

def tpHandleEmptyQueue (m : CoordMotion) : CoordMotion :=
  if !m.tp.stopping && !m.tp.stepTargetPending then m.tpResume else m

def checkStop (m : CoordMotion) (tc : Tc) (atRest : Bool) : CoordMotion :=
  let pausing := m.tp.pausing || (m.tp.stopping && !m.tp.stopTargetPending)
  { m with
    tp := { m.tp with pausing }
    stopped := m.stopped ||
      (((pausing && decide (tc.synchronized ≠ .position)) ||
        (m.tp.stopping && !m.tp.stopTargetPending)) && atRest) }

/-- The part of `tpRunCycle` that is the base planner's, up to the removal of the segment. -/
def advance (m : CoordMotion) (tc : Tc) (rest : List Tc) (cycle : PlannerCycle) : CoordMotion :=
  let tc :=
    { tc with
      active := tc.active || cycle.activates
      progressed := tc.progressed || cycle.moves }
  let rest := rest.modifyHead fun next =>
    { next with progressed := next.progressed || cycle.spills }
  let tp := { m.tp with queue := tc :: rest, waitingForIndex := cycle.waitingForIndex }
  if cycle.completes then
    { m with tp := tp.tpCompleteSegment tc, completed := m.completed ++ [tc.slot] }
  else { m with tp }

def tpRunCycle (m : CoordMotion) (cycle : PlannerCycle) : CoordMotion :=
  match m.tp.queue with
  | [] =>
    if m.tp.stopping then
      let m := m.tpHandleEmptyQueue
      if m.tp.stopTargetPending = true ∧ m.tp.stopPassId ≠ 0 ∧ m.tp.stopTc = none then m
      else if m.tp.stopping then { m with tp := { m.tp with pausing := true }, stopped := true }
      else m
    else m.tpHandleEmptyQueue
  | tc :: rest => (m.checkStop tc cycle.atRest).advance tc rest cycle

def outputToHal (m : CoordMotion) (atRest : Bool) : CoordMotion :=
  { m with stopped := m.stopped || (m.tp.stopping && !m.tp.stopTargetPending && atRest) }

def updateStatus (m : CoordMotion) (execId : ℤ) : CoordMotion :=
  let targetedStepDone := m.tp.steppingToMotionTarget && !m.tp.stepTargetPending
  let lineStepDone := !m.tp.steppingToMotionTarget && decide (m.idForStep ≠ execId)
  if m.stepping && (targetedStepDone || lineStepDone) then
    let tp :=
      { m.tp with
        stepTc := none, stepPassId := 0, stepMotionId := 0, steppingToMotionTarget := false }
    { m with tp := tp.tpPause m.stepping, stepping := false, paused := true }
  else m

def emcmotStop (m : CoordMotion) : CoordMotion :=
  let tp :=
    { m.tp with stopping := true, stopTc := none, stopTargetPending := false, stopPassId := 0 }
  { m with tp := tp.tpPause false, stepping := false, paused := true, stopped := false }

def emcmotResume (m : CoordMotion) : CoordMotion :=
  { m.tpResume with stepping := false, paused := false }

/-- `EMCMOT_STEP`; the error it reports otherwise leaves everything as it is. -/
def emcmotStep (m : CoordMotion) (execId : ℤ) : CoordMotion :=
  if m.stepping = false ∧ m.tp.queue ≠ [] then
    let m := if m.paused then m.tpResume else m
    let tp :=
      { m.tp with steppingToMotionTarget := true, stepTargetPending := false }
    let m := { m with tp := tp.tpPause true, stepping := true }
    if m.tp.stepTargetPending then m
    else
      let tp :=
        { m.tp with
          stepTc := none, stepPassId := 0, stepMotionId := 0, steppingToMotionTarget := false }
      { m with tp, idForStep := execId }.tpResume
  else m

def step (program : List Move) (m : CoordMotion) : MotionAction → Option CoordMotion
  | .deliver nextId blend =>
    if m.failed then none
    else program[m.delivered]?.map fun move => m.tpAddLine move nextId blend
  | .runCycle cycle => some (m.tpRunCycle cycle)
  | .outputToHal atRest => some (m.outputToHal atRest)
  | .updateStatus execId => some (m.updateStatus execId)
  | .stop => some m.emcmotStop
  | .resume => some m.emcmotResume
  | .step execId => some (m.emcmotStep execId)

def spindleSync (program : List Move) (m : CoordMotion) : Prop :=
  (m.completed.getLast?.bind fun slot => program[slot]?).map Move.synchronized = some .position

instance (program : List Move) (m : CoordMotion) : Decidable (m.spindleSync program) :=
  inferInstanceAs (Decidable (_ = _))

end CoordMotion

/-- What is taken from the base planner about a cycle with `tc` at the head of the queue. Only an
active segment moves or completes; one that is held and has not left its start stays there; motion
runs on into the next segment only over a blended boundary; and a segment that continues a
synchronised one does not wait for the spindle index again. -/
def PlannerCycle.Sound (program : List Move) (m : CoordMotion) (tc : Tc) (cycle : PlannerCycle) :
    Prop :=
  (cycle.moves = true → (tc.active = true ∨ cycle.activates = true) ∧
    ((m.checkStop tc cycle.atRest).tp.holds tc = true → tc.progressed = true)) ∧
  (cycle.spills = true → cycle.moves = true ∧ tc.termCond ≠ .stop ∧ tc.termCond ≠ .exact) ∧
  (cycle.completes = true → (tc.active = true ∨ cycle.activates = true) ∧
    (tc.progressed = true ∨ cycle.moves = true)) ∧
  (cycle.waitingForIndex ≠ none → cycle.completes = false ∧ ¬ m.spindleSync program)

instance (program : List Move) (m : CoordMotion) (tc : Tc) (cycle : PlannerCycle) :
    Decidable (cycle.Sound program m tc) :=
  inferInstanceAs (Decidable (_ ∧ _))

namespace CoordMotion

/-- The base planner keeps to `PlannerCycle.Sound`. -/
def Planned (program : List Move) (m : CoordMotion) : MotionAction → Prop
  | .runCycle cycle => ∀ tc ∈ m.tp.queue.head?, cycle.Sound program m tc
  | _ => True

/-- And no further motion command arrives. -/
def Undisturbed (program : List Move) (m : CoordMotion) : MotionAction → Prop
  | .runCycle cycle => ∀ tc ∈ m.tp.queue.head?, cycle.Sound program m tc
  | .deliver _ _ | .outputToHal _ | .updateStatus _ => True
  | .stop | .resume | .step _ => False

instance (program : List Move) (m : CoordMotion) (a : MotionAction) : Decidable (m.Planned program a) := by
  cases a <;> dsimp only [Planned] <;> infer_instance

instance (program : List Move) (m : CoordMotion) (a : MotionAction) : Decidable (m.Undisturbed program a) := by
  cases a <;> dsimp only [Undisturbed] <;> infer_instance

end CoordMotion

/-- One G76 pass of a program: position-synchronised cuts and then the marked clearance. The moves
before (approach and infeed among them) and after it are arbitrary. -/
structure G76Pass (program : List Move) where
  passId : ℤ
  before : List Move
  cuts : List Move
  clearance : Move
  later : List Move
  program_eq : program = before ++ cuts ++ clearance :: later
  passId_ne : passId ≠ 0
  cut : ∀ move ∈ cuts,
    move.synchronized = .position ∧ move.g76PassId = passId ∧ move.g76PassClearance ≠ 1
  clearance_id : clearance.g76PassId = passId
  clearance_mark : clearance.g76PassClearance = 1

namespace G76Pass

variable {program : List Move} (pass : G76Pass program)

def first : ℕ := pass.before.length

def last : ℕ := pass.before.length + pass.cuts.length

/-- The first cut has passed the spindle index and the clearance is not complete. -/
def Cutting (m : CoordMotion) : Prop :=
  m.completed.length ≤ pass.last ∧
    (pass.first < m.completed.length ∨
      m.completed.length = pass.first ∧
        ∃ tc ∈ m.tp.queue.head?, tc.active = true ∧ m.tp.waitingForIndex ≠ some tc.id)

/-- A Stop taken in `s` ends at the clearance, as seen in a later state `t`: the segments completed
are those up to some place of the pass, in order; none after the clearance has left its start; motion
reports stopped only when all of the pass is complete; no motion was refused; until then no segment
of the pass is held; and the pass can be completed from here. -/
structure StopsAtClearance (s t : CoordMotion) : Prop where
  completed : ∃ n, s.completed.length ≤ n ∧ n ≤ pass.last + 1 ∧ t.completed = List.range n
  no_later_start : ∀ tc ∈ t.tp.queue, pass.last < tc.slot → tc.progressed = false
  stopped_after : t.stopped = true → t.completed = List.range (pass.last + 1)
  none_refused : t.failed = s.failed
  not_held : t.completed.length ≤ pass.last → ∀ tc ∈ t.tp.queue.head?, t.tp.holds tc = false
  can_finish : t.failed = false → ∃ actions u,
    Lib.RunWhere (CoordMotion.step program) (CoordMotion.Undisturbed program) t actions u ∧
      u.stopped = true ∧ u.completed = List.range (pass.last + 1)

end G76Pass

end LinuxcncCtrl
