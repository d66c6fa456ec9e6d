import LinuxcncCtrl.Spec.Availability

/-! One call of `process_availability` and the commands between two calls. -/

namespace LinuxcncCtrl

open Lib

variable {D : Type} [CDouble D]

namespace Availability

variable (size : MachineSize) (inputs : AvailabilityInputs D) (s : Availability D)

def validateJointPosition (n : ℕ) : Bool :=
  let joint := s.joints n
  let feedback := inputs.motorPosFb n
  let expected := (s.avail (.joint n)).heldPosition + joint.backlashFilt + joint.motorOffset
  CDouble.isfinite feedback && CDouble.isfinite expected && CDouble.isfinite joint.minFerror &&
    decide (0 ≤ joint.minFerror) && decide (CDouble.fabs (feedback - expected) ≤ joint.minFerror)

/-- `none` when the acquired position is not finite. -/
def availabilityStartHoming (n : ℕ) : Option (Availability D) :=
  let joint := s.joints n
  let motor := inputs.motorPosFb n
  let position := motor - joint.backlashFilt - joint.motorOffset
  if !CDouble.isfinite motor || !CDouble.isfinite position then none
  else
    let homing : JointMotion D :=
      { joint with
        motorPosFb := motor
        posFb := position
        posCmd := position
        coarsePos := position
        freeTp :=
          { currPos := position, posCmd := position, lastPosCmd := position, currVel := 0,
            currAcc := 0, currJerk := 0, enable := false, active := false }
        velCmd := 0
        accCmd := 0
        jerkCmd := 0
        ferror := 0
        ferrorFlag := false
        active := true
        enable := s.enableFlag }
    some (s.setJoint n homing)

def availabilityCompleteJoint (n : ℕ) : Availability D :=
  let a := s.avail (.joint n)
  let s := s.setAvail (.joint n)
    { a with phase := .idle, returnMotionState := .free, state := .available }
  match a.returnMotionState with
  | .coord => { s with coordinating := true }
  | .teleop =>
    { s with
      coordinating := inputs.teleopFlags.1
      teleoperating := inputs.teleopFlags.2
      joints := fun n => inputs.teleopJoint (s.joints n) }
  | .free | .disabled => s

def availabilityFinishHoming (n : ℕ) : Availability D :=
  s.availabilityCompleteJoint inputs n

def jointEnabling (n : ℕ) : Availability D :=
  let a := s.avail (.joint n)
  let ack := inputs.ack (.joint n)
  if ack && !(s.pins (.joint n)).request then s.setJointAvailabilityFault size inputs n .ackStaleHigh
  else if ack then
    if !inputs.homed n ∧ a.phase = .runtimeAck then
      { s.setAvail (.joint n)
          { a with returnMotionState := inputs.motionState, state := .homing, phase := .waitFree } with
        coordinating := false
        teleoperating := false }
    else if !s.validateJointPosition inputs n then
      s.setJointAvailabilityFault size inputs n .positionMismatch
    else
      (s.setJoint n { s.joints n with active := true, enable := s.enableFlag }).availabilityCompleteJoint
        inputs n
  else if a.timedOut inputs.now then s.setJointAvailabilityFault size inputs n .acquireTimeout
  else s

def jointHoming (n : ℕ) : Availability D :=
  let a := s.avail (.joint n)
  if !inputs.ack (.joint n) then s.setJointAvailabilityFault size inputs n .ackLost
  else if a.phase = .waitFree then
    if inputs.motionState ≠ .free then s
    else if inputs.homingInhibit then s.setJointAvailabilityFault size inputs n .homeAborted
    else match s.availabilityStartHoming inputs n with
      | none => s.setJointAvailabilityFault size inputs n .homeFailed
      | some s =>
        s.setAvail (.joint n) { a with phase := .waitHomeStart, transitionStarted := inputs.now }
  else if a.phase = .waitHomeStart then
    if inputs.homing n then s.setAvail (.joint n) { a with phase := .waitHomeFinish }
    else if inputs.homed n && inputs.homeIdle n then s.availabilityFinishHoming inputs n
    else if a.timedOut inputs.now then s.setJointAvailabilityFault size inputs n .homeFailed
    else s
  else if inputs.homeIdle n then
    if inputs.homed n then s.availabilityFinishHoming inputs n
    else s.setJointAvailabilityFault size inputs n .homeFailed
  else s

def jointAvailable (n : ℕ) : Availability D :=
  if !inputs.homed n then s.setJointAvailabilityFault size inputs n .homeFailed
  else if !inputs.ack (.joint n) then s.setJointAvailabilityFault size inputs n .ackLost
  else s

/-- The end of a release, once homing is idle: wait for the acknowledge to fall. -/
def releaseEnd (r : Resource) (name : String) : Availability D :=
  let a := s.avail r
  if !inputs.ack r then
    if a.targetAvailable then
      s.setAvail r { a with state := .enabling, transitionStarted := inputs.now }
    else s.setAvail r { a with state := if a.fault = .none then .disabled else .fault }
  else if a.timedOut inputs.now then s.releaseTimedOut size inputs r name
  else s

/-- Freeze the joint where the cancelled homing left it, and deactivate it. -/
def freezeJoint (n : ℕ) : Availability D :=
  let a := s.avail (.joint n)
  let joint := s.joints n
  let heldPosition := if a.volatileHome ∧ joint.active then joint.posCmd else a.heldPosition
  (s.setAvail (.joint n) { a with heldPosition, phase := .idle }).setJoint n
    { joint with
      posFb := heldPosition
      motorPosFb := heldPosition + joint.backlashFilt + joint.motorOffset
      velCmd := 0
      accCmd := 0
      jerkCmd := 0
      freeTp :=
        { joint.freeTp with
          currVel := 0, currAcc := 0, currJerk := 0, enable := false, active := false }
      inpos := true
      active := false }

/-- The joint stays active until the homing engine has consumed the abort. -/
def jointCancelHome (n : ℕ) : Availability D :=
  if (s.avail (.joint n)).phase = .cancelHome then
    if !inputs.homeIdle n then s
    else (s.freezeJoint n).releaseEnd size inputs (.joint n) ("joint " ++ toString n)
  else s.releaseEnd size inputs (.joint n) ("joint " ++ toString n)

def jointDisabling (n : ℕ) : Availability D :=
  let a := s.avail (.joint n)
  if a.phase = .waitSettled then
    if !inputs.ack (.joint n) then s.setJointAvailabilityFault size inputs n .ackLost
    else if inputs.releaseState n ≠ .ready then
      if a.timedOut inputs.now then s.setJointAvailabilityFault size inputs n .transitionAborted
      else s
    else
      let joint := s.joints n
      let s := s.setAvail (.joint n) { a with heldPosition := joint.coarsePos }
      let s := s.setJoint n { joint with posCmd := joint.coarsePos }
      (s.availabilityReleaseJoint n .none inputs.stamp).jointCancelHome size inputs n
  else s.jointCancelHome size inputs n

def examineJoint (n : ℕ) : Availability D :=
  let a := s.avail (.joint n)
  if !a.controlled then s.setAvail (.joint n) { a with state := .available }
  else
    match a.state with
    | .disabled =>
      if inputs.ack (.joint n) then s.setJointAvailabilityFault size inputs n .ackUnexpected else s
    | .enabling => s.jointEnabling size inputs n
    | .homing => s.jointHoming size inputs n
    | .available => s.jointAvailable size inputs n
    | .disabling => s.jointDisabling size inputs n
    | .fault => s

/-- Write the pins of `r`; `request` is what the loop computes for it. -/
def writePins (r : Resource) (request : Bool) : Availability D :=
  let a := s.avail r
  { s with
    pins := Function.update s.pins r
      { request
        available := a.state = .available
        state := a.state
        fault := a.fault ≠ .none
        faultCode := a.fault } }

def jointRequest (a : AvailabilityStatus D) : Bool :=
  (a.controlled && a.targetAvailable &&
      (a.state = .enabling || a.state = .homing || a.state = .available)) ||
    (a.controlled && a.phase = .waitSettled)

def processJoint (s : Availability D) (n : ℕ) : Availability D :=
  let s := s.examineJoint size inputs n
  s.writePins (.joint n) (jointRequest (s.avail (.joint n)))

def spindleEnabling (n : ℕ) : Availability D :=
  let a := s.avail (.spindle n)
  let ack := inputs.ack (.spindle n)
  if ack && !(s.pins (.spindle n)).request then
    s.setSpindleAvailabilityFault size inputs n .ackStaleHigh
  else if ack then
    s.setAvail (.spindle n) { a with state := .available, phase := .idle }
  else if a.timedOut inputs.now then s.setSpindleAvailabilityFault size inputs n .acquireTimeout
  else s

def examineSpindle (n : ℕ) : Availability D :=
  let a := s.avail (.spindle n)
  let ack := inputs.ack (.spindle n)
  if !a.controlled then s.setAvail (.spindle n) { a with state := .available }
  else
    match a.state with
    | .disabled => if ack then s.setSpindleAvailabilityFault size inputs n .ackUnexpected else s
    | .enabling => s.spindleEnabling size inputs n
    | .available => if !ack then s.setSpindleAvailabilityFault size inputs n .ackLost else s
    | .disabling => s.releaseEnd size inputs (.spindle n) ("spindle " ++ toString n)
    | .homing => s.setSpindleAvailabilityFault size inputs n .transitionAborted
    | .fault => s

def spindleRequest (a : AvailabilityStatus D) : Bool :=
  a.controlled && a.targetAvailable && (a.state = .enabling || a.state = .available)

def processSpindle (s : Availability D) (n : ℕ) : Availability D :=
  let s := s.examineSpindle size inputs n
  s.writePins (.spindle n) (spindleRequest (s.avail (.spindle n)))

/-- The scan over the initial spindles; `left` is how many are still to be looked at. -/
def scanSpindles (s : Availability D) : ℕ → Availability D
  | 0 => s
  | left + 1 =>
    let r := Resource.spindle s.availabilityResource
    let a := s.avail r
    if !a.controlled ∨ !a.initialAvailable ∨ a.state = .available then
      scanSpindles { s with availabilityResource := s.availabilityResource + 1 } left
    else if a.state = .disabled then s.availabilityBegin r false inputs.stamp
    else s

def faulted : Bool :=
  (List.range size.joints).any (fun n =>
    (s.avail (.joint n)).controlled && (s.avail (.joint n)).fault ≠ .none) ||
  (List.range size.spindles).any (fun n =>
    (s.avail (.spindle n)).controlled && (s.avail (.spindle n)).fault ≠ .none)

def machineOn : Availability D :=
  if !s.availabilityMachineOn then s
  else if s.faulted size then s.availabilityCancel size true inputs.stamp
  else
    let s := scanSpindles inputs s (size.spindles - s.availabilityResource)
    if s.availabilityResource = size.spindles then
      if inputs.enable then { s with availabilityMachineOn := false, enabling := true }
      else s.availabilityCancel size true inputs.stamp
    else s

def checkEnable : Availability D :=
  if !inputs.enable && (s.availabilityMachineOn || s.enableFlag) then
    s.availabilityCancel size true inputs.stamp
  else s

def processAvailability : Availability D :=
  let s := s.checkEnable size inputs
  let s := (List.range size.joints).foldl (processJoint size inputs) s
  let s := (List.range size.spindles).foldl (processSpindle size inputs) s
  s.machineOn size inputs

def refuse (status : CommandStatus) : Availability D :=
  { s with commandStatus := status }

def availabilityTransitionBusy : Bool :=
  (List.range size.joints).any (fun n =>
    let state := (s.avail (.joint n)).state
    state = .enabling || state = .homing || state = .disabling) ||
  (List.range size.spindles).any (fun n =>
    let state := (s.avail (.spindle n)).state
    state = .enabling || state = .disabling)

/-- The record takes a request: it is controlled and at rest. -/
def atRest (a : AvailabilityStatus D) : Bool :=
  a.controlled && (a.state = .disabled || a.state = .available || a.state = .fault)

def satisfied (a : AvailabilityStatus D) (available : Bool) : Bool :=
  if available then a.state = .available else a.state = .disabled

def setJointAvailability (joint : ℤ) (available : Bool) : Availability D :=
  let n := joint.toNat
  let a := s.avail (.joint n)
  if joint < 0 ∨ size.joints ≤ joint then s.refuse .invalidParams
  else if s.availabilityTransitionBusy size then s.refuse .invalidCommand
  else if !atRest a then s.refuse .invalidCommand
  else if satisfied a available then s
  else if inputs.releaseState n = .blocked then s.refuse .invalidCommand
  else if available && !inputs.homed n && inputs.homingInhibit then
    (s.reportError ("Homing denied by motion.homing-inhibit joint=" ++ toString n)).refuse .invalidCommand
  else if available then
    if !s.enableFlag || !inputs.enable then s.refuse .invalidCommand
    else s.availabilityBegin (.joint n) true inputs.stamp
  else if a.state = .available then s.availabilityBeginJointRelease n inputs.stamp
  else s.availabilityReleaseJoint n .none inputs.stamp

def setSpindleAvailability (spindle : ℤ) (available : Bool) : Availability D :=
  let n := spindle.toNat
  let a := s.avail (.spindle n)
  if spindle < 0 ∨ size.spindles ≤ spindle then s.refuse .invalidParams
  else if s.availabilityTransitionBusy size then s.refuse .invalidCommand
  else if !atRest a then s.refuse .invalidCommand
  else if satisfied a available then s
  else if (s.spindles n).state ≠ 0 ∨ (s.spindles n).orientState = .inProgress ∨
      (inputs.tpQueueDepth ≠ 0 ∧ inputs.tpSynchronized ∧ inputs.tpSpindle = spindle) then
    s.refuse .invalidCommand
  else if available then
    if !s.enableFlag || !inputs.enable then s.refuse .invalidCommand
    else s.availabilityBegin (.spindle n) true inputs.stamp
  else s.availabilityReleaseSpindle n .none inputs.stamp

def disable : Availability D :=
  ({ s with enabling := false }).availabilityCancel size true inputs.stamp

/-- `EMCMOT_ENABLE`; a repeated Machine On changes nothing. -/
def enable : Availability D :=
  if s.enableFlag || s.enabling || s.availabilityMachineOn then s
  else if !inputs.enable then
    s.reportError "can't enable motion, enable input is false"
  else { s with enabling := false, availabilityMachineOn := true, availabilityResource := 0 }

end Availability

/-- The motion controller outside availability. It sees availability only through the functions
above, and may do anything to its own state. -/
structure MotionOther (D : Type) where
  joints : ℕ → JointMotion D
  spindles : ℕ → SpindleMotion D
  enabling : Bool
  coordinating : Bool
  teleoperating : Bool
  motionError : Bool
  availabilityMotionError : Bool
  enableFlag : Bool

inductive AvailabilityAction (D : Type)
  | process (inputs : AvailabilityInputs D)
  | setJoint (inputs : AvailabilityInputs D) (joint : ℤ) (available : Bool)
  | setSpindle (inputs : AvailabilityInputs D) (spindle : ℤ) (available : Bool)
  | enable (inputs : AvailabilityInputs D)
  | disable (inputs : AvailabilityInputs D)
  | cancel (inputs : AvailabilityInputs D) (all : Bool)
  | other (motion : MotionOther D)

namespace Availability

def step (size : MachineSize) (s : Availability D) : AvailabilityAction D → Option (Availability D)
  | .process inputs => some (s.processAvailability size inputs)
  | .setJoint inputs joint available =>
    some ((s.refuse .ok).setJointAvailability size inputs joint available)
  | .setSpindle inputs spindle available =>
    some ((s.refuse .ok).setSpindleAvailability size inputs spindle available)
  | .enable inputs => some (s.enable inputs)
  | .disable inputs => some (s.disable size inputs)
  | .cancel inputs all => some (s.availabilityCancel size all inputs.stamp)
  | .other motion =>
    some { s with
      joints := motion.joints
      spindles := motion.spindles
      enabling := motion.enabling
      coordinating := motion.coordinating
      teleoperating := motion.teleoperating
      motionError := motion.motionError
      availabilityMotionError := motion.availabilityMotionError
      enableFlag := motion.enableFlag }

structure Configured (s : Availability D) : Prop where
  state : ∀ r, (s.avail r).controlled = true → (s.avail r).state = .disabled
  target : ∀ r, (s.avail r).controlled = true → (s.avail r).targetAvailable = false
  phase : ∀ r, (s.avail r).controlled = true → (s.avail r).phase = .idle
  request : ∀ r, (s.pins r).request = false

end Availability

end LinuxcncCtrl
