import LinuxcncCtrl.Spec.ResumableStop

/-! Availability of joints and spindles, from `command.c` and `control.c`: the handshake between the
request pin and the acknowledge pin of each resource, its acquisition, release and faults, and the
Machine On sequence that acquires the initial spindles. The homing engine, the planner and the clock
are inputs of each call. -/

namespace LinuxcncCtrl

open Lib

/-- The operations of C's `double` that the availability code uses. -/
class CDouble (D : Type) extends Zero D, Add D, Sub D, LE D where
  fabs : D → D
  isfinite : D → Bool
  decidableLE : DecidableLE D

instance CDouble.instDecidableLE {D : Type} [CDouble D] : DecidableLE D := CDouble.decidableLE

inductive AvailabilityState
  | disabled | enabling | homing | available | disabling | fault
  deriving DecidableEq

inductive AvailabilityFault
  | none | ackStaleHigh | acquireTimeout | releaseTimeout | ackLost | ackUnexpected | homeFailed
  | homeAborted | positionMismatch | transitionAborted
  deriving DecidableEq

inductive AvailabilityPhase
  | idle | initialAck | runtimeAck | waitFree | waitHomeStart | waitHomeFinish | waitSettled
  | cancelHome
  deriving DecidableEq

/-- `motion_state_t` -/
inductive MotionMode
  | disabled | free | teleop | coord
  deriving DecidableEq

inductive JointRelease
  | blocked | draining | ready
  deriving DecidableEq

inductive CommandStatus
  | ok | invalidCommand | invalidParams
  deriving DecidableEq

/-- A joint or a spindle; both have the same availability record and pins. -/
inductive Resource
  | joint (n : ℕ)
  | spindle (n : ℕ)
  deriving DecidableEq

structure AvailabilityStatus (D : Type) where
  controlled : Bool
  initialAvailable : Bool
  volatileHome : Bool
  targetAvailable : Bool
  phase : AvailabilityPhase
  heldPosition : D
  returnMotionState : MotionMode
  state : AvailabilityState
  fault : AvailabilityFault
  timeout : D
  transitionStarted : D

structure AvailabilityPins where
  request : Bool := false
  available : Bool := false
  state : AvailabilityState := .disabled
  fault : Bool := false
  faultCode : AvailabilityFault := .none

structure FreeTp (D : Type) where
  currPos : D
  posCmd : D
  lastPosCmd : D
  currVel : D
  currAcc : D
  currJerk : D
  enable : Bool
  active : Bool

/-- The fields of `emcmot_joint_t` that availability reads or writes. -/
structure JointMotion (D : Type) where
  posCmd : D
  coarsePos : D
  posFb : D
  motorPosFb : D
  backlashFilt : D
  motorOffset : D
  minFerror : D
  ferror : D
  velCmd : D
  accCmd : D
  jerkCmd : D
  freeTp : FreeTp D
  kbJjogActive : Bool
  wheelJjogActive : Bool
  active : Bool
  enable : Bool
  inpos : Bool
  ferrorFlag : Bool

/-- The fields of `spindle_status_t` and of the spindle's pins that availability reads or writes. -/
structure SpindleMotion (D : Type) where
  state : ℤ
  speed : D
  brake : Bool
  locked : Bool
  orientState : SpindleOrientState
  indexEnable : Bool
  halIndexEnable : Bool
  halOrient : Bool
  halLocked : Bool
  oldMotionIndex : Bool
  oldHalIndex : Bool

structure Availability (D : Type) where
  avail : Resource → AvailabilityStatus D
  pins : Resource → AvailabilityPins
  joints : ℕ → JointMotion D
  spindles : ℕ → SpindleMotion D
  enabling : Bool := false
  coordinating : Bool := false
  teleoperating : Bool := false
  motionError : Bool := false
  availabilityMotionError : Bool := false
  availabilityMachineOn : Bool := false
  availabilityResource : ℕ := 0
  /-- `GET_MOTION_ENABLE_FLAG` -/
  enableFlag : Bool := false
  commandStatus : CommandStatus := .ok
  /-- The messages given to `reportError`. -/
  reports : List String := []

/-- What a call reads: pins, clock, homing engine, planner. `now` is the first reading of the clock in
the call, `stamp` any later one. The last three fields stand for the rest of `set_operating_mode` and
for `switch_to_teleop_mode`, which the patches do not show: what they make of a joint, and of
`coordinating` and `teleoperating`. -/
structure AvailabilityInputs (D : Type) where
  now : D
  stamp : D
  enable : Bool
  homingInhibit : Bool
  motionState : MotionMode
  ack : Resource → Bool
  homed : ℕ → Bool
  homing : ℕ → Bool
  homeIdle : ℕ → Bool
  motorPosFb : ℕ → D
  releaseState : ℕ → JointRelease
  tpQueueDepth : ℕ
  tpSynchronized : Bool
  tpSpindle : ℤ
  disableJoint : JointMotion D → JointMotion D
  teleopJoint : JointMotion D → JointMotion D
  teleopFlags : Bool × Bool

/-- `ALL_JOINTS` and `numSpindles` -/
structure MachineSize where
  joints : ℕ
  spindles : ℕ

variable {D : Type} [CDouble D]

namespace AvailabilityStatus

variable (a : AvailabilityStatus D)

omit [CDouble D] in
def availabilityClearPending : AvailabilityStatus D :=
  { a with targetAvailable := false, phase := .idle, returnMotionState := .free }

def availabilityBegin (runtime : Bool) (etime : D) : AvailabilityStatus D :=
  { a with
    targetAvailable := true
    phase := if runtime then .runtimeAck else .initialAck
    returnMotionState := .free
    fault := .none
    transitionStarted := etime
    state := if a.state = .fault then .disabling else .enabling }

def timedOut (now : D) : Bool :=
  a.timeout ≤ now - a.transitionStarted

end AvailabilityStatus

def AvailabilityFault.code : AvailabilityFault → ℕ
  | .none => 0
  | .ackStaleHigh => 1
  | .acquireTimeout => 2
  | .releaseTimeout => 3
  | .ackLost => 4
  | .ackUnexpected => 5
  | .homeFailed => 6
  | .homeAborted => 7
  | .positionMismatch => 8
  | .transitionAborted => 9

def JointMotion.motionCancelJoint (joint : JointMotion D) : JointMotion D :=
  { joint with
    enable := false
    freeTp := { joint.freeTp with enable := false }
    kbJjogActive := false
    wheelJjogActive := false }

def SpindleMotion.stopped (spindle : SpindleMotion D) : SpindleMotion D :=
  { spindle with
    state := 0
    speed := 0
    brake := false
    locked := false
    orientState := .none
    indexEnable := false
    halIndexEnable := false
    oldMotionIndex := false
    oldHalIndex := false
    halOrient := false
    halLocked := false }

namespace Availability

variable (size : MachineSize) (s : Availability D)

def reportError (text : String) : Availability D :=
  { s with reports := s.reports ++ [text] }

def setAvail (r : Resource) (a : AvailabilityStatus D) : Availability D :=
  { s with avail := Function.update s.avail r a }

def setJoint (n : ℕ) (joint : JointMotion D) : Availability D :=
  { s with joints := Function.update s.joints n joint }

def setSpindle (n : ℕ) (spindle : SpindleMotion D) : Availability D :=
  { s with spindles := Function.update s.spindles n spindle }

def lowerRequest (r : Resource) : Availability D :=
  { s with pins := Function.update s.pins r { s.pins r with request := false } }

def availabilityBegin (r : Resource) (runtime : Bool) (etime : D) : Availability D :=
  s.setAvail r ((s.avail r).availabilityBegin runtime etime)

def availabilityReleaseJoint (n : ℕ) (fault : AvailabilityFault) (etime : D) : Availability D :=
  let a := s.avail (.joint n)
  if !a.controlled then s
  else
    let heldPosition :=
      if a.state = .available ∨ a.state = .homing then (s.joints n).posCmd else a.heldPosition
    let released : AvailabilityStatus D :=
      { a.availabilityClearPending with
        heldPosition
        phase := .cancelHome
        fault
        state := .disabling
        transitionStarted := etime }
    ((s.setAvail (.joint n) released).lowerRequest (.joint n)).setJoint n (s.joints n).motionCancelJoint

def availabilityBeginJointRelease (n : ℕ) (etime : D) : Availability D :=
  let a := s.avail (.joint n)
  s.setAvail (.joint n)
    { a with
      heldPosition := (s.joints n).coarsePos
      targetAvailable := false
      phase := .waitSettled
      fault := .none
      state := .disabling
      transitionStarted := etime }

def availabilityReleaseSpindle (n : ℕ) (fault : AvailabilityFault) (etime : D) : Availability D :=
  let a := s.avail (.spindle n)
  if !a.controlled then s
  else
    let released : AvailabilityStatus D :=
      { a.availabilityClearPending with fault, state := .disabling, transitionStarted := etime }
    ((s.setAvail (.spindle n) released).lowerRequest (.spindle n)).setSpindle n (s.spindles n).stopped

def cancelJoint (all : Bool) (etime : D) (s : Availability D) (n : ℕ) : Availability D :=
  let a := s.avail (.joint n)
  if (all ∨ a.state = .enabling ∨ a.state = .homing ∨ a.targetAvailable) ∧
      (all ∨ a.state ≠ .available) then
    s.availabilityReleaseJoint n a.fault etime
  else s

def cancelSpindle (all : Bool) (etime : D) (s : Availability D) (n : ℕ) : Availability D :=
  let a := s.avail (.spindle n)
  if (all ∨ a.state = .enabling ∨ a.targetAvailable) ∧ (all ∨ a.state ≠ .available) then
    s.availabilityReleaseSpindle n a.fault etime
  else s

/-- With a pending Machine On every resource is released, as with `all`. -/
def availabilityCancel (all : Bool) (etime : D) : Availability D :=
  let all := all || s.availabilityMachineOn
  let s : Availability D :=
    { s with
      availabilityMachineOn := false
      availabilityResource := 0
      enabling := s.enabling && !all
      coordinating := s.coordinating && !all
      teleoperating := s.teleoperating && !all }
  let s := (List.range size.joints).foldl (cancelJoint all etime) s
  (List.range size.spindles).foldl (cancelSpindle all etime) s

/-- The part of `set_operating_mode` that a motion fault reaches: disabling an enabled machine. -/
def setOperatingMode (inputs : AvailabilityInputs D) : Availability D :=
  if !s.enabling && s.enableFlag then
    let s := s.availabilityCancel size true inputs.stamp
    { s with enableFlag := false, joints := fun n => inputs.disableJoint (s.joints n) }
  else s

def availabilityMotionFault (inputs : AvailabilityInputs D) : Availability D :=
  setOperatingMode size
    { s with availabilityMotionError := true, motionError := true, enabling := false } inputs

def setJointAvailabilityFault (inputs : AvailabilityInputs D) (n : ℕ) (fault : AvailabilityFault) :
    Availability D :=
  let s := s.availabilityReleaseJoint n fault inputs.stamp
  let text := "joint " ++ toString n ++ " availability failed (" ++ toString fault.code ++ ")"
  (s.reportError text).availabilityMotionFault size inputs

def setSpindleAvailabilityFault (inputs : AvailabilityInputs D) (n : ℕ) (fault : AvailabilityFault) :
    Availability D :=
  let s := s.availabilityReleaseSpindle n fault inputs.stamp
  let text := "spindle " ++ toString n ++ " availability failed (" ++ toString fault.code ++ ")"
  (s.reportError text).availabilityMotionFault size inputs

/-- A release is due to time out: the request is dropped for good. -/
def releaseTimedOut (inputs : AvailabilityInputs D) (r : Resource) (name : String) :
    Availability D :=
  let a := s.avail r
  let fault := if a.fault = .none then .releaseTimeout else a.fault
  let s := s.setAvail r { a.availabilityClearPending with fault, state := .fault }
  (s.reportError (name ++ " availability release timed out")).availabilityMotionFault size inputs

end Availability

end LinuxcncCtrl
