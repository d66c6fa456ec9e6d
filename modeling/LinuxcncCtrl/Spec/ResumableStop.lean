import LinuxcncCtrl.Lib.Runs

/-! The resumable Stop of `emctaskmain.cc`: the four stop states, the outputs a Stop saves and
switches off, and the Run, Resume and Step commands that bring them back. Everything the task reads
from motion, IO and the rest of itself is an input of the step that reads it. Numbers of type
`double` are any type with the comparisons and the sum the code uses. -/

namespace LinuxcncCtrl

open Lib

inductive TaskStopState
  | idle | stopping | stopped | starting
  deriving DecidableEq

inductive TaskInterp
  | idle | reading | paused | waiting
  deriving DecidableEq

inductive SpindleOrientState
  | none | inProgress | complete | faulted
  deriving DecidableEq

inductive PlanCommand
  | run | resume | step
  deriving DecidableEq

structure StopSpindleState (D : Type) where
  running : Bool
  speed : D
  cssFactor : D
  cssXoffset : D
  orienting : Bool
  orientation : D
  orientMode : ℤ
  orientTimeout : D
  orientDeadline : D

structure SpindleOrientRequest (D : Type) where
  orientation : D
  mode : ℤ
  timeout : D

structure SpindleInputs (D : Type) where
  enabled : Bool
  speed : D
  cssFactor : D
  cssXoffset : D
  orientState : SpindleOrientState

structure MotionInputs (D : Type) where
  stopped : Bool
  queue : ℕ
  spindle : ℕ → SpindleInputs D
  mist : Bool
  flood : Bool
  etime : D

structure PlanInputs where
  stateOn : Bool
  modeAuto : Bool
  execDone : Bool
  queue : ℕ
  interpListLen : ℕ
  hasTaskCommand : Bool

structure TaskStepping where
  interpState : TaskInterp := .idle
  interpResumeState : TaskInterp := .idle
  singleStepping : Bool := false
  stepping : Bool := false
  steppingWait : Bool := false
  steppedLine : ℤ := 0
  currentPassGroup : ℤ := 0
  steppedPassGroup : ℤ := 0
  inFlightStepArmed : Bool := false
  taskPaused : Bool := false

/-- A command the task writes to motion or IO. Spindles are switched on with
`EMCMOT_SPINDLE_AT_SPEED_PRESERVE`. -/
inductive TaskOutput (D : Type)
  | trajStop
  | trajResume
  | trajStep
  | mistOn
  | mistOff
  | floodOn
  | floodOff
  | spindleOn (spindle : ℕ) (speed cssFactor cssXoffset : D)
  | spindleOff (spindle : ℕ)
  | spindleOrient (spindle : ℕ) (orientation : D) (mode : ℤ)
  | operatorError (text : String)
  deriving DecidableEq

inductive TaskEvent (D : Type)
  | stopAccepted
  | stopRefused
  | planCommand (command : PlanCommand)
  | stopResume
  | issued (output : TaskOutput D)
  deriving DecidableEq

structure TaskStop (D : Type) where
  stopState : TaskStopState := .idle
  stopSpindles : ℕ → StopSpindleState D
  activeSpindleOrientRequests : ℕ → SpindleOrientRequest D
  stopMist : Bool := false
  stopFlood : Bool := false
  stopResumeLatched : Bool := false
  stopSingleStep : Bool := false
  stopOutputsSaved : Bool := false
  task : TaskStepping := {}

def issueIf {D : Type} (b : Bool) (output : TaskOutput D) : List (TaskEvent D) :=
  if b then [.issued output] else []

namespace TaskStepping

variable (t : TaskStepping)

def emcTaskResetSteppingState : TaskStepping :=
  { t with
    stepping := false
    steppingWait := false
    steppedLine := 0
    currentPassGroup := 0
    steppedPassGroup := 0
    inFlightStepArmed := false }

def emcTaskResumeInterpreter : TaskStepping :=
  emcTaskResetSteppingState
    { t with
      interpState := if t.interpState = .paused then t.interpResumeState else t.interpState
      singleStepping := false }

def emcTaskStepInterpreter (queue : ℕ) : TaskStepping :=
  { t with
    singleStepping := true
    stepping := true
    steppingWait := false
    interpState := if queue = 0 then t.interpResumeState else t.interpState
    taskPaused := true }

end TaskStepping

namespace TaskStop

variable {D : Type} [Zero D] [Add D] [LT D] [DecidableLT D] [LE D] [DecidableLE D]

-- spindles is emcStatus->motion.traj.spindles
variable (spindles : ℕ) (m : TaskStop D)

def emcTaskStopClear : TaskStop D :=
  { m with
    stopResumeLatched := false
    stopSingleStep := false
    stopOutputsSaved := false
    stopSpindles := fun _ => ⟨false, 0, 0, 0, false, 0, 0, 0, 0⟩
    stopState := .idle
    task := if m.stopState ≠ .idle then { m.task with taskPaused := false } else m.task }

def emcTaskStopDisableSavedOutputs : List (TaskEvent D) :=
  (List.range spindles).flatMap (fun s =>
    issueIf ((m.stopSpindles s).running || (m.stopSpindles s).orienting) (.spindleOff s)) ++
  issueIf m.stopMist .mistOff ++
  issueIf m.stopFlood .floodOff

def emcTaskStopResume (etime : D) : TaskStop D × List (TaskEvent D) :=
  if !m.stopOutputsSaved then ({ m with stopResumeLatched := false }, [.stopResume])
  else
    let restarted (s : ℕ) : StopSpindleState D :=
      let saved := m.stopSpindles s
      if s < spindles ∧ saved.orienting then
        { saved with
          orientDeadline := if 0 < saved.orientTimeout then etime + saved.orientTimeout else 0 }
      else saved
    let outputs := issueIf m.stopMist .mistOn ++ issueIf m.stopFlood .floodOn ++
      (List.range spindles).flatMap fun s =>
        let saved := m.stopSpindles s
        issueIf saved.running (.spindleOn s saved.speed saved.cssFactor saved.cssXoffset) ++
        issueIf saved.orienting (.spindleOrient s saved.orientation saved.orientMode)
    ({ m with stopResumeLatched := false, stopSpindles := restarted, stopState := .starting },
      .stopResume :: outputs)

/-- What a Stop remembers of a spindle. The request is read only while orienting. -/
def saveSpindle (saved : StopSpindleState D) (status : SpindleInputs D)
    (request : SpindleOrientRequest D) : StopSpindleState D :=
  let orienting : Bool := status.orientState = .inProgress
  { saved with
    running := status.enabled
    speed := status.speed
    cssFactor := status.cssFactor
    cssXoffset := status.cssXoffset
    orienting
    orientation := if orienting then request.orientation else saved.orientation
    orientMode := if orienting then request.mode else saved.orientMode
    orientTimeout := if orienting then request.timeout else saved.orientTimeout }

def saveOutputs (motion : MotionInputs D) : TaskStop D :=
  if m.stopOutputsSaved then m
  else
    { m with
      stopMist := motion.mist
      stopFlood := motion.flood
      stopSpindles := fun s =>
        if s < spindles then
          saveSpindle (m.stopSpindles s) (motion.spindle s) (m.activeSpindleOrientRequests s)
        else m.stopSpindles s
      stopOutputsSaved := true }

def spindleOutputActive (motion : MotionInputs D) (s : ℕ) : Bool :=
  (motion.spindle s).enabled || (motion.spindle s).orientState = .inProgress

def progressStopping (motion : MotionInputs D) : TaskStop D × List (TaskEvent D) :=
  if !motion.stopped then (m, [])
  else
    let saved := m.saveOutputs spindles motion
    let outputs :=
      (List.range spindles).flatMap (fun s =>
        issueIf (spindleOutputActive motion s) (.spindleOff s)) ++
      (if m.stopOutputsSaved then []
       else issueIf saved.stopMist .mistOff ++ issueIf saved.stopFlood .floodOff)
    if (List.range spindles).any (spindleOutputActive motion) then (saved, outputs)
    else
      let stopped := { saved with stopState := .stopped }
      if stopped.stopResumeLatched then
        let resumed := stopped.emcTaskStopResume spindles motion.etime
        (resumed.1, outputs ++ resumed.2)
      else (stopped, outputs)

inductive OrientWait
  | failed (spindle : ℕ)
  | waiting
  | done
  deriving DecidableEq

/-- The loop of the STARTING case over the spindles, up to its first `return`. -/
def awaitOrients (motion : MotionInputs D) : List ℕ → OrientWait
  | [] => .done
  | s :: rest =>
    let saved := m.stopSpindles s
    if saved.orienting then
      if (motion.spindle s).orientState = .faulted ∨
          (0 < saved.orientDeadline ∧ saved.orientDeadline ≤ motion.etime) then .failed s
      else if (motion.spindle s).orientState ≠ .complete then .waiting
      else awaitOrients motion rest
    else awaitOrients motion rest

def progressStarting (motion : MotionInputs D) : TaskStop D × List (TaskEvent D) :=
  match m.awaitOrients motion (List.range spindles) with
  | .failed s =>
    ({ m with stopState := .stopped },
      m.emcTaskStopDisableSavedOutputs spindles ++
        [.issued (.operatorError ("resumed spindle orientation failed on spindle " ++ toString s))])
  | .waiting => (m, [])
  | .done =>
    ({ m with
        stopState := .idle
        stopSingleStep := false
        stopOutputsSaved := false
        task := { m.task with taskPaused := m.stopSingleStep } },
      [.issued (if m.stopSingleStep then .trajStep else .trajResume)])

def emcTaskStopProgress (motion : MotionInputs D) : TaskStop D × List (TaskEvent D) :=
  match m.stopState with
  | .stopping => m.progressStopping spindles motion
  | .starting => m.progressStarting spindles motion
  | .idle | .stopped => (m, [])

/-- `emcTaskPlan` on Run, Resume and Step. Outside a Stop the command takes the ordinary route, which
does not touch the stop state. -/
def emcTaskPlan (command : PlanCommand) (motion : MotionInputs D) :
    TaskStop D × List (TaskEvent D) :=
  if m.stopState = .idle then (m, [.planCommand command])
  else
    let single : Bool := command = .step
    let task :=
      if single then m.task.emcTaskStepInterpreter motion.queue
      else if m.task.interpState = .paused then m.task.emcTaskResumeInterpreter
      else m.task
    let m := { m with stopSingleStep := single, task }
    match m.stopState with
    | .stopping => ({ m with stopResumeLatched := true }, [.planCommand command])
    | .stopped =>
      let resumed := m.emcTaskStopResume spindles motion.etime
      (resumed.1, .planCommand command :: resumed.2)
    | .starting | .idle => (m, [.planCommand command])

def activeAutoProgram (inputs : PlanInputs) : Bool :=
  m.task.interpState ≠ .idle || !inputs.execDone || 0 < inputs.queue || 0 < inputs.interpListLen ||
    inputs.hasTaskCommand

def stopAllowed (inputs : PlanInputs) : Bool :=
  inputs.stateOn && inputs.modeAuto && m.activeAutoProgram inputs

/-- `EMC_TASK_PLAN_STOP_TYPE` of `emcTaskIssueCommand`; `trajStop` is what `emcTrajStop` returns. The
third component is the return value. -/
def emcTaskPlanStop (inputs : PlanInputs) (trajStop : ℤ) :
    TaskStop D × List (TaskEvent D) × ℤ :=
  if !m.stopAllowed inputs then
    (m, [.issued (.operatorError "Can't stop program when no AUTO program is active")], -1)
  else
    match m.stopState with
    | .idle =>
      ({ m with
          stopResumeLatched := false
          stopSingleStep := false
          stopOutputsSaved := false
          stopState := .stopping
          task := { m.task with taskPaused := true } },
        [.issued .trajStop], trajStop)
    | .starting =>
      ({ m with stopState := .stopped, stopResumeLatched := false, stopSingleStep := false },
        m.emcTaskStopDisableSavedOutputs spindles, 0)
    | .stopping | .stopped => (m, [], 0)

end TaskStop

structure StopSystem (D : Type) where
  machine : TaskStop D
  events : List (TaskEvent D) := []

inductive StopAction (D : Type)
  | stop (inputs : PlanInputs) (trajStop : ℤ)
  | plan (command : PlanCommand) (motion : MotionInputs D)
  | progress (motion : MotionInputs D)
  /-- Abort, a mode change, an error, or a task that is not ON. -/
  | clear
  | orientRequest (spindle : ℕ) (request : SpindleOrientRequest D)
  | other (task : TaskStepping)

namespace StopSystem

variable {D : Type} [Zero D] [Add D] [LT D] [DecidableLT D] [LE D] [DecidableLE D]
  (spindles : ℕ) (s : StopSystem D)

def record (result : TaskStop D × List (TaskEvent D)) : StopSystem D :=
  { machine := result.1, events := s.events ++ result.2 }

def step (s : StopSystem D) : StopAction D → Option (StopSystem D)
  | .stop inputs trajStop =>
    let result := s.machine.emcTaskPlanStop spindles inputs trajStop
    let answer := if result.2.2 = 0 then .stopAccepted else .stopRefused
    some (s.record (result.1, result.2.1 ++ [answer]))
  | .plan command motion => some (s.record (s.machine.emcTaskPlan spindles command motion))
  | .progress motion => some (s.record (s.machine.emcTaskStopProgress spindles motion))
  | .clear => some (s.record (s.machine.emcTaskStopClear, []))
  | .orientRequest spindle request =>
    some (s.record ({ s.machine with
      activeSpindleOrientRequests :=
        Function.update s.machine.activeSpindleOrientRequests spindle request }, []))
  | .other task => some (s.record ({ s.machine with task }, []))

end StopSystem

end LinuxcncCtrl
