import LinuxcncCtrl.Spec.AvailabilityCycle

/-! What the availability pins should say, and when a call of `process_availability` may leave them behind
the records: the switch of one resource can fail, and a failure with motion enabled drops all of them. The
conditions are on the state before the call. -/

namespace LinuxcncCtrl

variable {D : Type} [CDouble D]

def MachineSize.order (size : MachineSize) : List Resource :=
  (List.range size.joints).map .joint ++ (List.range size.spindles).map .spindle

omit [CDouble D] in
/-- The fields of a joint that decide whether its acquisition fails. -/
def JointMotion.calibration (joint : JointMotion D) : D × D × D :=
  (joint.backlashFilt, joint.motorOffset, joint.minFerror)

omit [CDouble D] in
/-- `switch_to_teleop_mode` leaves the calibration of the joints alone. -/
def AvailabilityInputs.Calibrated (inputs : AvailabilityInputs D) : Prop :=
  ∀ joint, (inputs.teleopJoint joint).calibration = joint.calibration

namespace Availability

variable (size : MachineSize) (inputs : AvailabilityInputs D) (s : Availability D)

def processResource (s : Availability D) : Resource → Availability D
  | .joint n => processJoint size inputs s n
  | .spindle n => processSpindle size inputs s n

/-- The state in which the iteration for `r` starts. -/
def reached (r : Resource) : Availability D :=
  (size.order.takeWhile (· ≠ r)).foldl (processResource size inputs) (s.checkEnable size inputs)

def release (fault : AvailabilityFault) (etime : D) : Resource → Availability D
  | .joint n => s.availabilityReleaseJoint n fault etime
  | .spindle n => s.availabilityReleaseSpindle n fault etime

/-- The pins of `r` but the request say what the record of `r` says. -/
structure Truthful (r : Resource) : Prop where
  available : (s.pins r).available = decide ((s.avail r).state = .available)
  state : (s.pins r).state = (s.avail r).state
  fault : (s.pins r).fault = decide ((s.avail r).fault ≠ .none)
  faultCode : (s.pins r).faultCode = (s.avail r).fault

/-- A controlled resource is requested only to be acquired or kept, or while it settles. -/
def Entitled (r : Resource) : Prop :=
  (s.avail r).controlled = true → (s.pins r).request = true →
    ((s.avail r).state = .enabling ∨ (s.avail r).state = .homing ∨ (s.avail r).state = .available) ∧
        (s.avail r).targetAvailable = true ∨
      (s.avail r).phase = .waitSettled

def jointFails (n : ℕ) : Bool :=
  let a := s.avail (.joint n)
  let ack := inputs.ack (.joint n)
  match a.state with
  | .disabled => ack
  | .enabling =>
    if ack then
      !(s.pins (.joint n)).request ||
        (!(!inputs.homed n && a.phase = .runtimeAck) && !s.validateJointPosition inputs n)
    else a.timedOut inputs.now
  | .homing =>
    !ack ||
      if a.phase = .waitFree then
        inputs.motionState = .free &&
          (inputs.homingInhibit || (s.availabilityStartHoming inputs n).isNone)
      else if a.phase = .waitHomeStart then
        !inputs.homing n && !(inputs.homed n && inputs.homeIdle n) && a.timedOut inputs.now
      else inputs.homeIdle n && !inputs.homed n
  | .available => !inputs.homed n || !ack
  | .disabling =>
    if a.phase = .waitSettled then
      !ack ||
        if inputs.releaseState n = .ready then
          inputs.homeIdle n && a.timeout ≤ inputs.now - inputs.stamp
        else a.timedOut inputs.now
    else (a.phase ≠ .cancelHome || inputs.homeIdle n) && ack && a.timedOut inputs.now
  | .fault => false

def spindleFails (n : ℕ) : Bool :=
  let a := s.avail (.spindle n)
  let ack := inputs.ack (.spindle n)
  match a.state with
  | .disabled => ack
  | .enabling => if ack then !(s.pins (.spindle n)).request else a.timedOut inputs.now
  | .homing => true
  | .available => !ack
  | .disabling => ack && a.timedOut inputs.now
  | .fault => false

def fails (r : Resource) : Bool :=
  (s.avail r).controlled &&
    match r with
    | .joint n => s.jointFails inputs n
    | .spindle n => s.spindleFails inputs n

/-- What the start of the call makes of `r`: a low enable input releases it. -/
def entering (r : Resource) : Availability D :=
  if !inputs.enable && (s.availabilityMachineOn || s.enableFlag) then
    s.release (s.avail r).fault inputs.stamp r
  else s

/-- A released resource that this call leaves as it is: its acknowledge is still high, or a joint's homing
has not stopped. -/
def Lingers (r : Resource) : Prop :=
  (s.avail r).state = .disabling ∧
    (inputs.ack r = true ∨ (s.avail r).phase = .cancelHome ∧ ∃ n, r = .joint n ∧ inputs.homeIdle n = false)

/-- The call leaves `r` released: it lingers, or it fails before its release. -/
def Subsides (r : Resource) : Prop :=
  s.fails inputs r = false ∧ s.Lingers inputs r ∨ s.fails inputs r = true ∧ (s.avail r).state ≠ .disabling

/-- The scan of Machine On passes the spindle: it need not be acquired, or it is available after this call. -/
def Passes (n : ℕ) : Prop :=
  (s.avail (.spindle n)).controlled = true → (s.avail (.spindle n)).initialAvailable = true →
    (s.avail (.spindle n)).state = .available ∨
      (s.avail (.spindle n)).state = .enabling ∧ inputs.ack (.spindle n) = true

/-- The first spindle at which the scan stops is not at rest after this call. -/
def ScanWaits : Prop :=
  ∀ n, s.availabilityResource ≤ n → n < size.spindles →
    (∀ m, s.availabilityResource ≤ m → m < n → s.Passes inputs m) →
    (s.avail (.spindle n)).controlled = true → (s.avail (.spindle n)).initialAvailable = true →
      (s.avail (.spindle n)).state ≠ .disabled ∧ ((s.avail (.spindle n)).state = .disabling →
        inputs.ack (.spindle n) = true ∨ (s.avail (.spindle n)).targetAvailable = true)

/-- Nothing that this call does to one resource reaches another whose pins it has written already. With
motion enabled, the first resource that fails comes after none but lingering ones. A pending Machine On that
the call comes to finds no fault to end it and no spindle to begin, or finds everything released. -/
structure Undisturbed : Prop where
  motion : s.enableFlag = true → (∀ r ∈ size.order, (s.entering inputs r).fails inputs r = false) ∨
    ∃ before r after, size.order = before ++ r :: after ∧ (s.entering inputs r).fails inputs r = true ∧
      ∀ r' ∈ before, (s.entering inputs r').fails inputs r' = false ∧
        ((s.avail r').controlled = true → (s.entering inputs r').Lingers inputs r')
  machineOn : s.availabilityMachineOn = true → inputs.enable = true →
    (s.enableFlag = true → ∀ r ∈ size.order, s.fails inputs r = false) →
      ((∀ r ∈ size.order, s.fails inputs r = false ∧
        ((s.avail r).controlled = true → (s.avail r).fault = .none)) ∧ s.ScanWaits size inputs) ∨
      ∀ r ∈ size.order, (s.avail r).controlled = true → s.Subsides inputs r

/-- The condition on the steps of a run: every call is undisturbed. -/
def CallUndisturbed (action : AvailabilityAction D) : Prop :=
  ∀ inputs, action = .process inputs → inputs.Calibrated ∧ s.Undisturbed size inputs

end Availability

end LinuxcncCtrl
