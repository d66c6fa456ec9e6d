import LinuxcncCtrl.Lib.IndexedDelta

/-! The records of the status channel: what the NML reader hands over (`NmlStatusSnapshot`), the
wire message `LinuxCNCStat` of `machine.proto`, and its delta. `F` stands for the doubles, which the
codec only copies and compares. The proto3 enumerations are open, so every cast of an `Int32` into
one of them is a value of it. -/

namespace LinuxcncCtrl

open Lib

section Enums

abbrev TaskMode := Int32
abbrev TaskState := Int32
abbrev RcsStatus := Int32
abbrev ExecState := Int32
abbrev InterpState := Int32
abbrev StopState := Int32
abbrev TrajMode := Int32
abbrev MotionType := Int32
abbrev KinematicsType := Int32
abbrev JointType := Int32
abbrev OrientState := Int32
abbrev AxisName := Int32
abbrev ProgramUnits := Int32

end Enums

@[ext] structure NmlPose (F : Type) where
  values : Vector F 9
  deriving DecidableEq, Inhabited

structure NmlToolEntry (F : Type) where
  (toolNo pocketNo : Int32)
  (offset wearOffset : NmlPose F)
  (diameter frontAngle backAngle : F)
  orientation : Int32
  comment : String
  deriving DecidableEq, Inhabited

structure NmlTaskStatus (F : Type) where
  (mode state execState interpState stopState callLevel motionLine currentLine : Int32)
  readLine : Int32
  (optionalStopState blockDeleteState inputTimeout : Bool)
  (file command iniFilename : String)
  g5xOffset : NmlPose F
  g5xIndex : Int32
  g5xOffsets : List (NmlPose F)
  g5xRotations : List F
  (g92Offset g28Position g30Position : NmlPose F)
  rotationXy : F
  toolOffset : NmlPose F
  (activeGCodes activeMCodes : List Int32)
  activeSettings : List F
  (programUnits interpreterErrorCode : Int32)
  taskPaused : Bool
  delayLeft : F
  queuedMdiCommands : Int32
  deriving DecidableEq, Inhabited

structure NmlJointStatus (F : Type) where
  jointType : Int32
  (units backlash minPositionLimit maxPositionLimit minFerror maxFerror : F)
  (ferrorCurrent ferrorHighMark output input velocity : F)
  (inPosition homing homed fault enabled minSoftLimit maxSoftLimit minHardLimit : Bool)
  (maxHardLimit overrideLimits available : Bool)
  deriving DecidableEq, Inhabited

structure NmlAxisStatus (F : Type) where
  (minPositionLimit maxPositionLimit velocity : F)
  deriving DecidableEq, Inhabited

structure NmlSpindleStatus (F : Type) where
  (speed feedback overrideScale cssMaximum cssFactor : F)
  direction : Int32
  brake : Bool
  increasing : Int32
  enabled : Bool
  (orientState orientFault : Int32)
  (spindleOverrideEnabled homed available : Bool)
  deriving DecidableEq, Inhabited

structure NmlTrajectoryStatus (F : Type) where
  (linearUnits angularUnits cycleTime : F)
  (joints spindles : Int32)
  availableAxes : List Int32
  mode : Int32
  (enabled inPosition : Bool)
  (queue activeQueue : Int32)
  queueFull : Bool
  id : Int32
  (paused singleStepping : Bool)
  (feedRateOverride rapidRateOverride : F)
  (position actualPosition : NmlPose F)
  (acceleration maxVelocity maxAcceleration : F)
  probedPosition : NmlPose F
  (probeTripped probing : Bool)
  probeVal : F
  (kinematicsType motionType : Int32)
  distanceToGo : F
  dtg : NmlPose F
  currentVelocity : F
  (feedOverrideEnabled adaptiveFeedEnabled feedHoldEnabled : Bool)
  deriving DecidableEq, Inhabited

structure NmlMotionStatus (F : Type) where
  traj : NmlTrajectoryStatus F
  joints : List (NmlJointStatus F)
  axes : List (NmlAxisStatus F)
  spindles : List (NmlSpindleStatus F)
  (digitalInput digitalOutput : List Int32)
  (analogInput analogOutput : List F)
  deriving DecidableEq, Inhabited

structure NmlIoStatus where
  (pocketPrepped toolInSpindle toolFromPocket : Int32)
  (mist flood estop : Bool)
  deriving DecidableEq, Inhabited

/-- `file` is the copy of the program name that `observe_status` reads beside `taskStat.file`. -/
structure NmlStatusSnapshot (F : Type) where
  (echoSerialNumber rcsStatus : Int32)
  file : String
  debug : Int32
  taskStat : NmlTaskStatus F
  motionStat : NmlMotionStatus F
  ioStat : NmlIoStatus
  toolTable : List (NmlToolEntry F)
  deriving DecidableEq, Inhabited

@[ext] structure Position (F : Type) where
  values : List F
  deriving DecidableEq

@[ext] structure ActiveGCodes where
  (gMode0 motionMode plane distanceMode ijkDistanceMode feedRateMode units : Int32)
  (cutterComp toolLengthOffset retractMode origin pathControl spindleSpeedMode : Int32)
  (latheDiameterMode g92Applied : Int32)
  deriving DecidableEq

@[ext] structure ActiveMCodes where
  (stopping toolChange spindleControl mistCoolant floodCoolant overrideControl : Int32)
  (adaptiveFeedControl feedHoldControl : Int32)
  deriving DecidableEq

@[ext] structure ActiveSettings (F : Type) where
  (feedRate speed blendTolerance naiveCamTolerance : F)
  deriving DecidableEq

/-- The optional scalars carry their presence bit. -/
@[ext] structure ToolEntry (F : Type) where
  toolNo : Int32
  pocketNo : Option Int32
  (offset wearOffset : Position F)
  (diameter frontAngle backAngle : Option F)
  orientation : Option Int32
  comment : Option String
  deriving DecidableEq

@[ext] structure TaskStat (F : Type) where
  mode : TaskMode
  state : TaskState
  execState : ExecState
  interpState : InterpState
  stopState : StopState
  (callLevel motionLine currentLine readLine : Int32)
  (optionalStopState blockDeleteState inputTimeout : Bool)
  (file command iniFilename : String)
  g5xOffset : Position F
  g5xIndex : Int32
  g5xOffsets : List (Position F)
  g5xRotations : List F
  (g92Offset g28Position g30Position : Position F)
  rotationXy : F
  toolOffset : Position F
  activeGCodes : ActiveGCodes
  activeMCodes : ActiveMCodes
  activeSettings : ActiveSettings F
  programUnits : ProgramUnits
  interpreterErrorCode : Int32
  taskPaused : Bool
  delayLeft : F
  queuedMdiCommands : Int32
  deriving DecidableEq

@[ext] structure JointStat (F : Type) where
  jointType : JointType
  (units backlash minPositionLimit maxPositionLimit minFerror maxFerror : F)
  (ferrorCurrent ferrorHighMark output input velocity : F)
  (inPosition homing homed fault enabled minSoftLimit maxSoftLimit minHardLimit : Bool)
  (maxHardLimit overrideLimits available : Bool)
  deriving DecidableEq

@[ext] structure AxisStat (F : Type) where
  (minPositionLimit maxPositionLimit velocity : F)
  deriving DecidableEq

@[ext] structure SpindleStat (F : Type) where
  (speed feedback override cssMaximum cssFactor : F)
  direction : Int32
  brake : Bool
  increasing : Int32
  enabled : Bool
  orientState : OrientState
  orientFault : Int32
  (spindleOverrideEnabled homed available : Bool)
  deriving DecidableEq

@[ext] structure TrajectoryStat (F : Type) where
  (linearUnits angularUnits cycleTime : F)
  (joints spindles : Int32)
  availableAxes : List AxisName
  mode : TrajMode
  (enabled inPosition : Bool)
  (queue activeQueue : Int32)
  queueFull : Bool
  id : Int32
  (paused singleStepping : Bool)
  (feedRateOverride rapidRateOverride : F)
  (position actualPosition : Position F)
  (acceleration maxVelocity maxAcceleration : F)
  probedPosition : Position F
  (probeTripped probing : Bool)
  probeVal : F
  kinematicsType : KinematicsType
  motionType : MotionType
  distanceToGo : F
  dtg : Position F
  currentVelocity : F
  (feedOverrideEnabled adaptiveFeedEnabled feedHoldEnabled : Bool)
  deriving DecidableEq

@[ext] structure MotionStat (F : Type) where
  traj : TrajectoryStat F
  joint : List (JointStat F)
  axis : List (AxisStat F)
  spindle : List (SpindleStat F)
  (digitalInput digitalOutput : List Int32)
  (analogInput analogOutput : List F)
  deriving DecidableEq

@[ext] structure ToolIoStat where
  (pocketPrepped toolInSpindle toolFromPocket : Int32)
  deriving DecidableEq

@[ext] structure CoolantIoStat where
  (mist flood : Bool)
  deriving DecidableEq

@[ext] structure IoStat where
  tool : ToolIoStat
  coolant : CoolantIoStat
  estop : Bool
  deriving DecidableEq

@[ext] structure LinuxCNCStat (F : Type) where
  echoSerialNumber : Int64
  state : RcsStatus
  task : TaskStat F
  motion : MotionStat F
  io : IoStat
  debug : Int32
  toolTable : List (ToolEntry F)
  deriving DecidableEq

/-! ### Deltas

An optional field is absent where its unit did not change. A repeated field cannot be absent on the
wire, so it has a `replace` flag beside it. -/

structure TaskStatDelta (F : Type) where
  mode : Option TaskMode
  state : Option TaskState
  execState : Option ExecState
  interpState : Option InterpState
  stopState : Option StopState
  (callLevel motionLine currentLine readLine : Option Int32)
  (optionalStopState blockDeleteState inputTimeout : Option Bool)
  (file command iniFilename : Option String)
  g5xOffset : Option (Position F)
  g5xIndex : Option Int32
  g5xOffsets : List (Position F)
  replaceG5xOffsets : Bool
  g5xRotations : List F
  replaceG5xRotations : Bool
  (g92Offset g28Position g30Position : Option (Position F))
  rotationXy : Option F
  toolOffset : Option (Position F)
  activeGCodes : Option ActiveGCodes
  activeMCodes : Option ActiveMCodes
  activeSettings : Option (ActiveSettings F)
  programUnits : Option ProgramUnits
  interpreterErrorCode : Option Int32
  taskPaused : Option Bool
  delayLeft : Option F
  queuedMdiCommands : Option Int32
  deriving DecidableEq

structure TrajectoryStatDelta (F : Type) where
  (linearUnits angularUnits cycleTime : Option F)
  (joints spindles : Option Int32)
  availableAxes : List AxisName
  replaceAvailableAxes : Bool
  mode : Option TrajMode
  (enabled inPosition : Option Bool)
  (queue activeQueue : Option Int32)
  queueFull : Option Bool
  id : Option Int32
  (paused singleStepping : Option Bool)
  (feedRateOverride rapidRateOverride : Option F)
  (position actualPosition : Option (Position F))
  (acceleration maxVelocity maxAcceleration : Option F)
  probedPosition : Option (Position F)
  (probeTripped probing : Option Bool)
  probeVal : Option F
  kinematicsType : Option KinematicsType
  motionType : Option MotionType
  distanceToGo : Option F
  dtg : Option (Position F)
  currentVelocity : Option F
  (feedOverrideEnabled adaptiveFeedEnabled feedHoldEnabled : Option Bool)
  deriving DecidableEq

structure MotionStatDelta (F : Type) where
  traj : Option (TrajectoryStatDelta F)
  joint : List (Indexed (JointStat F))
  axis : List (Indexed (AxisStat F))
  spindle : List (Indexed (SpindleStat F))
  digitalInput : List Int32
  replaceDigitalInput : Bool
  digitalOutput : List Int32
  replaceDigitalOutput : Bool
  analogInput : List F
  replaceAnalogInput : Bool
  analogOutput : List F
  replaceAnalogOutput : Bool
  deriving DecidableEq

structure IoStatDelta where
  tool : Option ToolIoStat
  coolant : Option CoolantIoStat
  estop : Option Bool
  deriving DecidableEq

structure ToolTableDelta (F : Type) where
  tools : List (ToolEntry F)
  deriving DecidableEq

structure LinuxCNCStatDelta (F : Type) where
  sequence : Int64
  echoSerialNumber : Option Int64
  state : Option RcsStatus
  task : Option (TaskStatDelta F)
  motion : Option (MotionStatDelta F)
  io : Option IoStatDelta
  toolTable : Option (ToolTableDelta F)
  debug : Option Int32
  deriving DecidableEq

end LinuxcncCtrl
