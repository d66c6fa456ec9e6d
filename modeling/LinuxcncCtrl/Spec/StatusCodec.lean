import LinuxcncCtrl.Spec.StatusWire

/-! The status codec of `status_codec.cc`: `encodeStatus` fills the wire message from an NML
snapshot, `makeStatusDelta` compares two wire messages unit by unit, and `applyDelta` is the rule by
which a client of the stream merges a delta into the status it holds. -/

namespace LinuxcncCtrl

open Lib

variable {F : Type}

def fillPose (pose : NmlPose F) : Position F where
  values := pose.values.toList

/-- A modal code the interpreter did not report keeps the proto3 default. -/
def codeAt [Zero F] (codes : List F) (index : ℕ) : F :=
  codes[index]?.getD 0

def fillActiveGCodes (codes : List Int32) : ActiveGCodes where
  motionMode := codeAt codes 1
  gMode0 := codeAt codes 2
  plane := codeAt codes 3
  cutterComp := codeAt codes 4
  units := codeAt codes 5
  distanceMode := codeAt codes 6
  feedRateMode := codeAt codes 7
  origin := codeAt codes 8
  toolLengthOffset := codeAt codes 9
  retractMode := codeAt codes 10
  pathControl := codeAt codes 11
  spindleSpeedMode := codeAt codes 13
  ijkDistanceMode := codeAt codes 14
  latheDiameterMode := codeAt codes 15
  g92Applied := codeAt codes 16

def fillActiveMCodes (codes : List Int32) : ActiveMCodes where
  stopping := codeAt codes 1
  spindleControl := codeAt codes 2
  toolChange := codeAt codes 3
  mistCoolant := codeAt codes 4
  floodCoolant := codeAt codes 5
  overrideControl := codeAt codes 6
  adaptiveFeedControl := codeAt codes 7
  feedHoldControl := codeAt codes 8

def fillActiveSettings [Zero F] (settings : List F) : ActiveSettings F where
  feedRate := codeAt settings 1
  speed := codeAt settings 2
  blendTolerance := codeAt settings 3
  naiveCamTolerance := codeAt settings 4

def fillTask [Zero F] (source : NmlTaskStatus F) : TaskStat F :=
  { mode := source.mode, state := source.state, execState := source.execState,
    interpState := source.interpState, stopState := source.stopState,
    callLevel := source.callLevel, motionLine := source.motionLine,
    currentLine := source.currentLine, readLine := source.readLine,
    optionalStopState := source.optionalStopState, blockDeleteState := source.blockDeleteState,
    inputTimeout := source.inputTimeout, file := source.file, command := source.command,
    iniFilename := source.iniFilename, g5xOffset := fillPose source.g5xOffset,
    g5xIndex := source.g5xIndex, g5xOffsets := source.g5xOffsets.map fillPose,
    g5xRotations := source.g5xRotations, g92Offset := fillPose source.g92Offset,
    g28Position := fillPose source.g28Position, g30Position := fillPose source.g30Position,
    rotationXy := source.rotationXy, toolOffset := fillPose source.toolOffset,
    activeGCodes := fillActiveGCodes source.activeGCodes,
    activeMCodes := fillActiveMCodes source.activeMCodes,
    activeSettings := fillActiveSettings source.activeSettings,
    programUnits := source.programUnits, interpreterErrorCode := source.interpreterErrorCode,
    taskPaused := source.taskPaused, delayLeft := source.delayLeft,
    queuedMdiCommands := source.queuedMdiCommands }

/-- LinuxCNC numbers the axes from zero, `AxisName` from one. -/
def fillTrajectory (source : NmlTrajectoryStatus F) : TrajectoryStat F :=
  { linearUnits := source.linearUnits, angularUnits := source.angularUnits,
    cycleTime := source.cycleTime, joints := source.joints, spindles := source.spindles,
    availableAxes := source.availableAxes.map (· + 1), mode := source.mode,
    enabled := source.enabled, inPosition := source.inPosition, queue := source.queue,
    activeQueue := source.activeQueue, queueFull := source.queueFull, id := source.id,
    paused := source.paused, singleStepping := source.singleStepping,
    feedRateOverride := source.feedRateOverride, rapidRateOverride := source.rapidRateOverride,
    position := fillPose source.position, actualPosition := fillPose source.actualPosition,
    acceleration := source.acceleration, maxVelocity := source.maxVelocity,
    maxAcceleration := source.maxAcceleration, probedPosition := fillPose source.probedPosition,
    probeTripped := source.probeTripped, probing := source.probing, probeVal := source.probeVal,
    kinematicsType := source.kinematicsType, motionType := source.motionType,
    distanceToGo := source.distanceToGo, dtg := fillPose source.dtg,
    currentVelocity := source.currentVelocity, feedOverrideEnabled := source.feedOverrideEnabled,
    adaptiveFeedEnabled := source.adaptiveFeedEnabled, feedHoldEnabled := source.feedHoldEnabled }

def fillJoint (joint : NmlJointStatus F) : JointStat F :=
  { jointType := joint.jointType, units := joint.units, backlash := joint.backlash,
    minPositionLimit := joint.minPositionLimit, maxPositionLimit := joint.maxPositionLimit,
    minFerror := joint.minFerror, maxFerror := joint.maxFerror,
    ferrorCurrent := joint.ferrorCurrent, ferrorHighMark := joint.ferrorHighMark,
    output := joint.output, input := joint.input, velocity := joint.velocity,
    inPosition := joint.inPosition, homing := joint.homing, homed := joint.homed,
    fault := joint.fault, enabled := joint.enabled, minSoftLimit := joint.minSoftLimit,
    maxSoftLimit := joint.maxSoftLimit, minHardLimit := joint.minHardLimit,
    maxHardLimit := joint.maxHardLimit, overrideLimits := joint.overrideLimits,
    available := joint.available }

def fillAxis (axis : NmlAxisStatus F) : AxisStat F :=
  { minPositionLimit := axis.minPositionLimit, maxPositionLimit := axis.maxPositionLimit,
    velocity := axis.velocity }

def fillSpindle (spindle : NmlSpindleStatus F) : SpindleStat F :=
  { speed := spindle.speed, feedback := spindle.feedback, override := spindle.overrideScale,
    cssMaximum := spindle.cssMaximum, cssFactor := spindle.cssFactor,
    direction := spindle.direction, brake := spindle.brake, increasing := spindle.increasing,
    enabled := spindle.enabled, orientState := spindle.orientState,
    orientFault := spindle.orientFault, spindleOverrideEnabled := spindle.spindleOverrideEnabled,
    homed := spindle.homed, available := spindle.available }

def fillMotion (source : NmlMotionStatus F) : MotionStat F where
  traj := fillTrajectory source.traj
  joint := source.joints.map fillJoint
  axis := source.axes.map fillAxis
  spindle := source.spindles.map fillSpindle
  digitalInput := source.digitalInput
  digitalOutput := source.digitalOutput
  analogInput := source.analogInput
  analogOutput := source.analogOutput

def fillIo (source : NmlIoStatus) : IoStat where
  tool :=
    { pocketPrepped := source.pocketPrepped, toolInSpindle := source.toolInSpindle,
      toolFromPocket := source.toolFromPocket }
  coolant := { mist := source.mist, flood := source.flood }
  estop := source.estop

def fillTool (tool : NmlToolEntry F) : ToolEntry F where
  toolNo := tool.toolNo
  pocketNo := some tool.pocketNo
  offset := fillPose tool.offset
  wearOffset := fillPose tool.wearOffset
  diameter := some tool.diameter
  frontAngle := some tool.frontAngle
  backAngle := some tool.backAngle
  orientation := some tool.orientation
  comment := some tool.comment

def encodeStatus [Zero F] (source : NmlStatusSnapshot F) : LinuxCNCStat F where
  echoSerialNumber := source.echoSerialNumber.toInt64
  state := source.rcsStatus
  task := fillTask source.taskStat
  motion := fillMotion source.motionStat
  io := fillIo source.ioStat
  debug := source.debug
  toolTable := source.toolTable.map fillTool

/-! ### Making a delta

`copy_task_delta` and `copy_trajectory_delta` return whether they wrote anything; the sub-delta of a
record that reports no change is cleared again by the caller. -/

section Delta

variable [DecidableEq F]

/-- The value of an optional unit: present exactly when it changed. -/
def copyChanged {α : Type} [DecidableEq α] (previous current : α) : Option α :=
  if previous ≠ current then some current else none

/-- The elements of a repeated unit; its `replace` flag says whether they count. -/
def copyRepeated {α : Type} [DecidableEq α] (previous current : List α) : List α :=
  if previous ≠ current then current else []

def taskChanged (previous current : TaskStat F) : Bool :=
  decide (
    previous.mode ≠ current.mode ∨ previous.state ≠ current.state ∨
    previous.execState ≠ current.execState ∨ previous.interpState ≠ current.interpState ∨
    previous.stopState ≠ current.stopState ∨ previous.callLevel ≠ current.callLevel ∨
    previous.motionLine ≠ current.motionLine ∨ previous.currentLine ≠ current.currentLine ∨
    previous.readLine ≠ current.readLine ∨
    previous.optionalStopState ≠ current.optionalStopState ∨
    previous.blockDeleteState ≠ current.blockDeleteState ∨
    previous.inputTimeout ≠ current.inputTimeout ∨ previous.file ≠ current.file ∨
    previous.command ≠ current.command ∨ previous.iniFilename ≠ current.iniFilename ∨
    previous.g5xIndex ≠ current.g5xIndex ∨ previous.rotationXy ≠ current.rotationXy ∨
    previous.programUnits ≠ current.programUnits ∨
    previous.interpreterErrorCode ≠ current.interpreterErrorCode ∨
    previous.taskPaused ≠ current.taskPaused ∨ previous.delayLeft ≠ current.delayLeft ∨
    previous.queuedMdiCommands ≠ current.queuedMdiCommands ∨
    previous.g5xOffset ≠ current.g5xOffset ∨ previous.g92Offset ≠ current.g92Offset ∨
    previous.g28Position ≠ current.g28Position ∨ previous.g30Position ≠ current.g30Position ∨
    previous.toolOffset ≠ current.toolOffset ∨ previous.activeGCodes ≠ current.activeGCodes ∨
    previous.activeMCodes ≠ current.activeMCodes ∨
    previous.activeSettings ≠ current.activeSettings ∨ previous.g5xOffsets ≠ current.g5xOffsets ∨
    previous.g5xRotations ≠ current.g5xRotations)

def copyTaskDelta (previous current : TaskStat F) : TaskStatDelta F × Bool :=
  ({ mode := copyChanged previous.mode current.mode,
     state := copyChanged previous.state current.state,
     execState := copyChanged previous.execState current.execState,
     interpState := copyChanged previous.interpState current.interpState,
     stopState := copyChanged previous.stopState current.stopState,
     callLevel := copyChanged previous.callLevel current.callLevel,
     motionLine := copyChanged previous.motionLine current.motionLine,
     currentLine := copyChanged previous.currentLine current.currentLine,
     readLine := copyChanged previous.readLine current.readLine,
     optionalStopState := copyChanged previous.optionalStopState current.optionalStopState,
     blockDeleteState := copyChanged previous.blockDeleteState current.blockDeleteState,
     inputTimeout := copyChanged previous.inputTimeout current.inputTimeout,
     file := copyChanged previous.file current.file,
     command := copyChanged previous.command current.command,
     iniFilename := copyChanged previous.iniFilename current.iniFilename,
     g5xOffset := copyChanged previous.g5xOffset current.g5xOffset,
     g5xIndex := copyChanged previous.g5xIndex current.g5xIndex,
     g5xOffsets := copyRepeated previous.g5xOffsets current.g5xOffsets,
     replaceG5xOffsets := decide (previous.g5xOffsets ≠ current.g5xOffsets),
     g5xRotations := copyRepeated previous.g5xRotations current.g5xRotations,
     replaceG5xRotations := decide (previous.g5xRotations ≠ current.g5xRotations),
     g92Offset := copyChanged previous.g92Offset current.g92Offset,
     g28Position := copyChanged previous.g28Position current.g28Position,
     g30Position := copyChanged previous.g30Position current.g30Position,
     rotationXy := copyChanged previous.rotationXy current.rotationXy,
     toolOffset := copyChanged previous.toolOffset current.toolOffset,
     activeGCodes := copyChanged previous.activeGCodes current.activeGCodes,
     activeMCodes := copyChanged previous.activeMCodes current.activeMCodes,
     activeSettings := copyChanged previous.activeSettings current.activeSettings,
     programUnits := copyChanged previous.programUnits current.programUnits,
     interpreterErrorCode := copyChanged previous.interpreterErrorCode current.interpreterErrorCode,
     taskPaused := copyChanged previous.taskPaused current.taskPaused,
     delayLeft := copyChanged previous.delayLeft current.delayLeft,
     queuedMdiCommands := copyChanged previous.queuedMdiCommands current.queuedMdiCommands },
   taskChanged previous current)

def trajectoryChanged (previous current : TrajectoryStat F) : Bool :=
  decide (
    previous.linearUnits ≠ current.linearUnits ∨ previous.angularUnits ≠ current.angularUnits ∨
    previous.cycleTime ≠ current.cycleTime ∨ previous.joints ≠ current.joints ∨
    previous.spindles ≠ current.spindles ∨ previous.mode ≠ current.mode ∨
    previous.enabled ≠ current.enabled ∨ previous.inPosition ≠ current.inPosition ∨
    previous.queue ≠ current.queue ∨ previous.activeQueue ≠ current.activeQueue ∨
    previous.queueFull ≠ current.queueFull ∨ previous.id ≠ current.id ∨
    previous.paused ≠ current.paused ∨ previous.singleStepping ≠ current.singleStepping ∨
    previous.feedRateOverride ≠ current.feedRateOverride ∨
    previous.rapidRateOverride ≠ current.rapidRateOverride ∨
    previous.acceleration ≠ current.acceleration ∨ previous.maxVelocity ≠ current.maxVelocity ∨
    previous.maxAcceleration ≠ current.maxAcceleration ∨
    previous.probeTripped ≠ current.probeTripped ∨ previous.probing ≠ current.probing ∨
    previous.probeVal ≠ current.probeVal ∨ previous.kinematicsType ≠ current.kinematicsType ∨
    previous.motionType ≠ current.motionType ∨ previous.distanceToGo ≠ current.distanceToGo ∨
    previous.currentVelocity ≠ current.currentVelocity ∨
    previous.feedOverrideEnabled ≠ current.feedOverrideEnabled ∨
    previous.adaptiveFeedEnabled ≠ current.adaptiveFeedEnabled ∨
    previous.feedHoldEnabled ≠ current.feedHoldEnabled ∨ previous.position ≠ current.position ∨
    previous.actualPosition ≠ current.actualPosition ∨
    previous.probedPosition ≠ current.probedPosition ∨ previous.dtg ≠ current.dtg ∨
    previous.availableAxes ≠ current.availableAxes)

def copyTrajectoryDelta (previous current : TrajectoryStat F) : TrajectoryStatDelta F × Bool :=
  ({ linearUnits := copyChanged previous.linearUnits current.linearUnits,
     angularUnits := copyChanged previous.angularUnits current.angularUnits,
     cycleTime := copyChanged previous.cycleTime current.cycleTime,
     joints := copyChanged previous.joints current.joints,
     spindles := copyChanged previous.spindles current.spindles,
     availableAxes := copyRepeated previous.availableAxes current.availableAxes,
     replaceAvailableAxes := decide (previous.availableAxes ≠ current.availableAxes),
     mode := copyChanged previous.mode current.mode,
     enabled := copyChanged previous.enabled current.enabled,
     inPosition := copyChanged previous.inPosition current.inPosition,
     queue := copyChanged previous.queue current.queue,
     activeQueue := copyChanged previous.activeQueue current.activeQueue,
     queueFull := copyChanged previous.queueFull current.queueFull,
     id := copyChanged previous.id current.id,
     paused := copyChanged previous.paused current.paused,
     singleStepping := copyChanged previous.singleStepping current.singleStepping,
     feedRateOverride := copyChanged previous.feedRateOverride current.feedRateOverride,
     rapidRateOverride := copyChanged previous.rapidRateOverride current.rapidRateOverride,
     position := copyChanged previous.position current.position,
     actualPosition := copyChanged previous.actualPosition current.actualPosition,
     acceleration := copyChanged previous.acceleration current.acceleration,
     maxVelocity := copyChanged previous.maxVelocity current.maxVelocity,
     maxAcceleration := copyChanged previous.maxAcceleration current.maxAcceleration,
     probedPosition := copyChanged previous.probedPosition current.probedPosition,
     probeTripped := copyChanged previous.probeTripped current.probeTripped,
     probing := copyChanged previous.probing current.probing,
     probeVal := copyChanged previous.probeVal current.probeVal,
     kinematicsType := copyChanged previous.kinematicsType current.kinematicsType,
     motionType := copyChanged previous.motionType current.motionType,
     distanceToGo := copyChanged previous.distanceToGo current.distanceToGo,
     dtg := copyChanged previous.dtg current.dtg,
     currentVelocity := copyChanged previous.currentVelocity current.currentVelocity,
     feedOverrideEnabled := copyChanged previous.feedOverrideEnabled current.feedOverrideEnabled,
     adaptiveFeedEnabled := copyChanged previous.adaptiveFeedEnabled current.adaptiveFeedEnabled,
     feedHoldEnabled := copyChanged previous.feedHoldEnabled current.feedHoldEnabled },
   trajectoryChanged previous current)

def copyMotionDelta (previous current : MotionStat F) : MotionStatDelta F × Bool :=
  let traj := copyTrajectoryDelta previous.traj current.traj
  let joint := indexedDiff previous.joint current.joint
  let axis := indexedDiff previous.axis current.axis
  let spindle := indexedDiff previous.spindle current.spindle
  ({ traj := if traj.2 then some traj.1 else none
     joint, axis, spindle
     digitalInput := copyRepeated previous.digitalInput current.digitalInput
     replaceDigitalInput := decide (previous.digitalInput ≠ current.digitalInput)
     digitalOutput := copyRepeated previous.digitalOutput current.digitalOutput
     replaceDigitalOutput := decide (previous.digitalOutput ≠ current.digitalOutput)
     analogInput := copyRepeated previous.analogInput current.analogInput
     replaceAnalogInput := decide (previous.analogInput ≠ current.analogInput)
     analogOutput := copyRepeated previous.analogOutput current.analogOutput
     replaceAnalogOutput := decide (previous.analogOutput ≠ current.analogOutput) },
   decide (traj.2 = true ∨ joint ≠ [] ∨ axis ≠ [] ∨ spindle ≠ [] ∨
     previous.digitalInput ≠ current.digitalInput ∨ previous.digitalOutput ≠ current.digitalOutput ∨
     previous.analogInput ≠ current.analogInput ∨ previous.analogOutput ≠ current.analogOutput))

def copyIoDelta (previous current : IoStat) : IoStatDelta × Bool :=
  ({ tool := copyChanged previous.tool current.tool
     coolant := copyChanged previous.coolant current.coolant
     estop := copyChanged previous.estop current.estop },
   decide (previous.tool ≠ current.tool ∨ previous.coolant ≠ current.coolant ∨
     previous.estop ≠ current.estop))

/-- `none` when no unit changed. The sequence number is cast from `uint64` to the wire's `int64`. -/
def makeStatusDelta (previous current : LinuxCNCStat F) (sequence : UInt64) :
    Option (LinuxCNCStatDelta F) :=
  let task := copyTaskDelta previous.task current.task
  let motion := copyMotionDelta previous.motion current.motion
  let io := copyIoDelta previous.io current.io
  if previous.state ≠ current.state ∨ previous.echoSerialNumber ≠ current.echoSerialNumber ∨
      previous.debug ≠ current.debug ∨ task.2 = true ∨ motion.2 = true ∨ io.2 = true ∨
      previous.toolTable ≠ current.toolTable then
    some
      { sequence := sequence.toInt64
        echoSerialNumber := copyChanged previous.echoSerialNumber current.echoSerialNumber
        state := copyChanged previous.state current.state
        task := if task.2 then some task.1 else none
        motion := if motion.2 then some motion.1 else none
        io := if io.2 then some io.1 else none
        toolTable := if previous.toolTable ≠ current.toolTable then some ⟨current.toolTable⟩ else none
        debug := copyChanged previous.debug current.debug }
  else none

end Delta

/-- A repeated field of a delta counts only under its flag, and may then be empty. -/
def replaceIf {α : Type} (replace : Bool) (values kept : List α) : List α :=
  if replace then values else kept

def applyTaskDelta (delta : TaskStatDelta F) (status : TaskStat F) : TaskStat F :=
  { mode := delta.mode.getD status.mode, state := delta.state.getD status.state,
    execState := delta.execState.getD status.execState,
    interpState := delta.interpState.getD status.interpState,
    stopState := delta.stopState.getD status.stopState,
    callLevel := delta.callLevel.getD status.callLevel,
    motionLine := delta.motionLine.getD status.motionLine,
    currentLine := delta.currentLine.getD status.currentLine,
    readLine := delta.readLine.getD status.readLine,
    optionalStopState := delta.optionalStopState.getD status.optionalStopState,
    blockDeleteState := delta.blockDeleteState.getD status.blockDeleteState,
    inputTimeout := delta.inputTimeout.getD status.inputTimeout,
    file := delta.file.getD status.file, command := delta.command.getD status.command,
    iniFilename := delta.iniFilename.getD status.iniFilename,
    g5xOffset := delta.g5xOffset.getD status.g5xOffset,
    g5xIndex := delta.g5xIndex.getD status.g5xIndex,
    g5xOffsets := replaceIf delta.replaceG5xOffsets delta.g5xOffsets status.g5xOffsets,
    g5xRotations := replaceIf delta.replaceG5xRotations delta.g5xRotations status.g5xRotations,
    g92Offset := delta.g92Offset.getD status.g92Offset,
    g28Position := delta.g28Position.getD status.g28Position,
    g30Position := delta.g30Position.getD status.g30Position,
    rotationXy := delta.rotationXy.getD status.rotationXy,
    toolOffset := delta.toolOffset.getD status.toolOffset,
    activeGCodes := delta.activeGCodes.getD status.activeGCodes,
    activeMCodes := delta.activeMCodes.getD status.activeMCodes,
    activeSettings := delta.activeSettings.getD status.activeSettings,
    programUnits := delta.programUnits.getD status.programUnits,
    interpreterErrorCode := delta.interpreterErrorCode.getD status.interpreterErrorCode,
    taskPaused := delta.taskPaused.getD status.taskPaused,
    delayLeft := delta.delayLeft.getD status.delayLeft,
    queuedMdiCommands := delta.queuedMdiCommands.getD status.queuedMdiCommands }

def applyTrajectoryDelta (delta : TrajectoryStatDelta F) (status : TrajectoryStat F) : TrajectoryStat F :=
  { linearUnits := delta.linearUnits.getD status.linearUnits,
    angularUnits := delta.angularUnits.getD status.angularUnits,
    cycleTime := delta.cycleTime.getD status.cycleTime,
    joints := delta.joints.getD status.joints, spindles := delta.spindles.getD status.spindles,
    availableAxes := replaceIf delta.replaceAvailableAxes delta.availableAxes status.availableAxes,
    mode := delta.mode.getD status.mode, enabled := delta.enabled.getD status.enabled,
    inPosition := delta.inPosition.getD status.inPosition,
    queue := delta.queue.getD status.queue,
    activeQueue := delta.activeQueue.getD status.activeQueue,
    queueFull := delta.queueFull.getD status.queueFull, id := delta.id.getD status.id,
    paused := delta.paused.getD status.paused,
    singleStepping := delta.singleStepping.getD status.singleStepping,
    feedRateOverride := delta.feedRateOverride.getD status.feedRateOverride,
    rapidRateOverride := delta.rapidRateOverride.getD status.rapidRateOverride,
    position := delta.position.getD status.position,
    actualPosition := delta.actualPosition.getD status.actualPosition,
    acceleration := delta.acceleration.getD status.acceleration,
    maxVelocity := delta.maxVelocity.getD status.maxVelocity,
    maxAcceleration := delta.maxAcceleration.getD status.maxAcceleration,
    probedPosition := delta.probedPosition.getD status.probedPosition,
    probeTripped := delta.probeTripped.getD status.probeTripped,
    probing := delta.probing.getD status.probing,
    probeVal := delta.probeVal.getD status.probeVal,
    kinematicsType := delta.kinematicsType.getD status.kinematicsType,
    motionType := delta.motionType.getD status.motionType,
    distanceToGo := delta.distanceToGo.getD status.distanceToGo,
    dtg := delta.dtg.getD status.dtg,
    currentVelocity := delta.currentVelocity.getD status.currentVelocity,
    feedOverrideEnabled := delta.feedOverrideEnabled.getD status.feedOverrideEnabled,
    adaptiveFeedEnabled := delta.adaptiveFeedEnabled.getD status.adaptiveFeedEnabled,
    feedHoldEnabled := delta.feedHoldEnabled.getD status.feedHoldEnabled }

def applyMotionDelta (delta : MotionStatDelta F) (status : MotionStat F) : MotionStat F where
  traj := (delta.traj.map (applyTrajectoryDelta · status.traj)).getD status.traj
  joint := indexedApply delta.joint status.joint
  axis := indexedApply delta.axis status.axis
  spindle := indexedApply delta.spindle status.spindle
  digitalInput := replaceIf delta.replaceDigitalInput delta.digitalInput status.digitalInput
  digitalOutput := replaceIf delta.replaceDigitalOutput delta.digitalOutput status.digitalOutput
  analogInput := replaceIf delta.replaceAnalogInput delta.analogInput status.analogInput
  analogOutput := replaceIf delta.replaceAnalogOutput delta.analogOutput status.analogOutput

def applyIoDelta (delta : IoStatDelta) (status : IoStat) : IoStat where
  tool := delta.tool.getD status.tool
  coolant := delta.coolant.getD status.coolant
  estop := delta.estop.getD status.estop

/-- Everything absent from the delta is kept. -/
def applyDelta (delta : LinuxCNCStatDelta F) (status : LinuxCNCStat F) : LinuxCNCStat F where
  echoSerialNumber := delta.echoSerialNumber.getD status.echoSerialNumber
  state := delta.state.getD status.state
  task := (delta.task.map (applyTaskDelta · status.task)).getD status.task
  motion := (delta.motion.map (applyMotionDelta · status.motion)).getD status.motion
  io := (delta.io.map (applyIoDelta · status.io)).getD status.io
  debug := delta.debug.getD status.debug
  toolTable := (delta.toolTable.map (·.tools)).getD status.toolTable

end LinuxcncCtrl
