import LinuxcncCtrl.Spec.AvailabilityPins
import LinuxcncCtrl.Sanity.Availability

/-! What one iteration does to the records, pins and flags of the others. A switch stays with its own resource;
one that fails then calls the motion fault, which drops the others only when motion is enabled. -/

namespace LinuxcncCtrl

variable {D : Type}

namespace Availability

variable {s s' s₁ : Availability D} {r r' : Resource} {size : MachineSize} {inputs : AvailabilityInputs D}

/-- Only the record, the pins and the motion of `r` may have changed. -/
structure Local (inputs : AvailabilityInputs D) (r : Resource) (s s' : Availability D) : Prop where
  avail : ∀ r', r' ≠ r → s'.avail r' = s.avail r'
  pins : ∀ r', r' ≠ r → s'.pins r' = s.pins r'
  controlled : (s'.avail r).controlled = (s.avail r).controlled
  initial : (s'.avail r).initialAvailable = (s.avail r).initialAvailable
  enableFlag : s'.enableFlag = s.enableFlag
  machineOn : s'.availabilityMachineOn = s.availabilityMachineOn
  resource : s'.availabilityResource = s.availabilityResource
  enabling : s'.enabling = true → s.enabling = true
  calibration : inputs.Calibrated → ∀ n, (s'.joints n).calibration = (s.joints n).calibration

theorem Local.refl (r : Resource) (s : Availability D) : Local inputs r s s :=
  ⟨fun _ _ => rfl, fun _ _ => rfl, rfl, rfl, rfl, rfl, rfl, id, fun _ _ => rfl⟩

variable {s'' : Availability D}

theorem Local.trans (h : Local inputs r s s') (h' : Local inputs r s' s'') : Local inputs r s s'' where
  avail r' hr' := (h'.avail r' hr').trans (h.avail r' hr')
  pins r' hr' := (h'.pins r' hr').trans (h.pins r' hr')
  controlled := h'.controlled.trans h.controlled
  initial := h'.initial.trans h.initial
  enableFlag := h'.enableFlag.trans h.enableFlag
  machineOn := h'.machineOn.trans h.machineOn
  resource := h'.resource.trans h.resource
  enabling hset := h.enabling (h'.enabling hset)
  calibration hteleop n := (h'.calibration hteleop n).trans (h.calibration hteleop n)

theorem Local.of_setAvail {a : AvailabilityStatus D} (havail : s'.avail = Function.update s.avail r a)
    (hpins : s'.pins = s.pins) (hcontrolled : a.controlled = (s.avail r).controlled)
    (hinitial : a.initialAvailable = (s.avail r).initialAvailable) (henable : s'.enableFlag = s.enableFlag)
    (hmachine : s'.availabilityMachineOn = s.availabilityMachineOn)
    (hresource : s'.availabilityResource = s.availabilityResource) (henabling : s'.enabling = s.enabling)
    (hjoints : inputs.Calibrated → ∀ n, (s'.joints n).calibration = (s.joints n).calibration) :
    Local inputs r s s' where
  avail r' hr' := by rw [havail, Function.update_of_ne hr']
  pins r' _ := by rw [hpins]
  controlled := by rw [havail, Function.update_self, hcontrolled]
  initial := by rw [havail, Function.update_self, hinitial]
  enableFlag := henable
  machineOn := hmachine
  resource := hresource
  enabling hset := henabling ▸ hset
  calibration := hjoints

variable {n : ℕ}

theorem calibration_update {joint : JointMotion D}
    (h : joint.calibration = (s.joints n).calibration) (n' : ℕ) :
    (Function.update s.joints n joint n').calibration = (s.joints n').calibration := by
  by_cases hn : n' = n
  · subst hn
    rw [Function.update_self, h]
  · rw [Function.update_of_ne hn]

variable [CDouble D]

theorem release_local (inputs : AvailabilityInputs D) (s : Availability D) (r : Resource)
    (fault : AvailabilityFault) (etime : D) : Local inputs r s (s.release fault etime r) := by
  cases h : (s.avail r).controlled with
  | false =>
    rw [release_free h]
    exact .refl r s
  | true =>
    cases r <;> simp only [release, availabilityReleaseJoint, availabilityReleaseSpindle, h, Bool.not_true,
      Bool.false_eq_true, if_false]
    · refine ⟨fun r' hr' => ?_, fun r' hr' => ?_, ?_, ?_, rfl, rfl, rfl, id, fun _ => calibration_update rfl⟩
      all_goals simp [setJoint, lowerRequest, setAvail, AvailabilityStatus.availabilityClearPending, *]
    · refine ⟨fun r' hr' => ?_, fun r' hr' => ?_, ?_, ?_, rfl, rfl, rfl, id, fun _ _ => rfl⟩
      all_goals simp [setSpindle, lowerRequest, setAvail, AvailabilityStatus.availabilityClearPending, *]

theorem foldl_cancel_flags (all : Bool) (etime : D) (l : List Resource) (s : Availability D) :
    (l.foldl (cancelResource all etime) s).enableFlag = s.enableFlag ∧
      (l.foldl (cancelResource all etime) s).availabilityMachineOn = s.availabilityMachineOn ∧
      (l.foldl (cancelResource all etime) s).enabling = s.enabling := by
  induction l generalizing s with
  | nil => exact ⟨rfl, rfl, rfl⟩
  | cons r l ih =>
    have hone : (cancelResource all etime s r).enableFlag = s.enableFlag ∧
        (cancelResource all etime s r).availabilityMachineOn = s.availabilityMachineOn ∧
        (cancelResource all etime s r).enabling = s.enabling := by
      cases r <;> simp only [cancelResource, cancelJoint, cancelSpindle, availabilityReleaseJoint,
        availabilityReleaseSpindle] <;> split_ifs <;> exact ⟨rfl, rfl, rfl⟩
    rw [← hone.1, ← hone.2.1, ← hone.2.2]
    exact ih _

theorem availabilityCancel_flags (size : MachineSize) (s : Availability D) (all : Bool) (etime : D) :
    (s.availabilityCancel size all etime).enableFlag = s.enableFlag ∧
      (s.availabilityCancel size all etime).availabilityMachineOn = false ∧
      (s.availabilityCancel size all etime).enabling = (s.enabling && !(all || s.availabilityMachineOn)) := by
  rw [availabilityCancel_eq]
  exact foldl_cancel_flags _ etime size.order _

/-- What an iteration that does not fail makes of the record of `r`. -/
structure Calm (inputs : AvailabilityInputs D) (r : Resource) (s s' : Availability D) : Prop where
  fault : (s'.avail r).fault = (s.avail r).fault ∨ (s'.avail r).fault = .none
  lingers : (s.avail r).controlled = true → s.Lingers inputs r → (s'.avail r).state = .disabling
  busy : (s.avail r).state ≠ .disabled → ((s.avail r).state = .disabling →
    inputs.ack r = true ∨ (s.avail r).targetAvailable = true) → (s'.avail r).state ≠ .disabled
  up : (s.avail r).controlled = true → (s.avail r).state = .available → (s'.avail r).state = .available
  entered : (s.avail r).controlled = true → (∀ n, r ≠ .joint n) → (s'.avail r).state = .available →
    (s.avail r).state = .available ∨ (s.avail r).state = .enabling ∧ inputs.ack r = true
  latched : ((s.avail r).state = .fault → (s.avail r).fault ≠ .none) →
    (s'.avail r).state = .fault → (s'.avail r).fault ≠ .none
  started : (s.avail r).controlled = true → (s'.avail r).phase = .initialAck →
    (s.avail r).phase = .initialAck ∧ ((s.avail r).state = .enabling → (s'.avail r).state = .enabling)

/-- A switch either stays with its resource, or fails: it has latched a fault and calls the motion fault. -/
inductive Switched (size : MachineSize) (inputs : AvailabilityInputs D) (r : Resource)
    (s : Availability D) : Bool → Availability D → Prop
  | calm {s' : Availability D} (hlocal : Local inputs r s s') (hcalm : Calm inputs r s s') :
    Switched size inputs r s false s'
  | failed {s₁ : Availability D} (hlocal : Local inputs r s s₁) (hfault : (s₁.avail r).fault ≠ .none)
      (hphase : (s₁.avail r).phase ≠ .initialAck)
      (hstate : (s.avail r).state ≠ .disabling → (s₁.avail r).state = .disabling) :
    Switched size inputs r s true (s₁.availabilityMotionFault size inputs)

omit [CDouble D] in
theorem Calm.refl (s : Availability D) : Calm inputs r s s :=
  ⟨.inl rfl, fun _ hlingers => hlingers.1, fun hstate _ => hstate, fun _ hup => hup, fun _ _ => .inl, id,
    fun _ hphase => ⟨hphase, id⟩⟩

theorem Switched.same (s : Availability D) : Switched size inputs r s false s :=
  .calm (.refl r s) (.refl s)

omit [CDouble D] in
theorem reportError_local (s : Availability D) (r : Resource) (text : String) :
    Local inputs r s (s.reportError text) :=
  ⟨fun _ _ => rfl, fun _ _ => rfl, rfl, rfl, rfl, rfl, rfl, id, fun _ _ => rfl⟩

variable {fault : AvailabilityFault}

theorem fault_switched (h : (s.avail r).controlled = true) (hfault : fault ≠ .none) :
    Switched size inputs r s true (s.setFault size inputs fault r) := by
  have hdown := (release_drops h fault inputs.stamp).self
  have hfailed : ∀ text, Switched size inputs r s true
      (((s.release fault inputs.stamp r).reportError text).availabilityMotionFault size inputs) := fun text =>
    .failed ((release_local inputs s r fault inputs.stamp).trans (reportError_local _ _ _))
      (fun hnone => hfault (hdown.fault.symm.trans hnone)) hdown.initial fun _ => hdown.state
  cases r <;> exact hfailed _

omit [CDouble D] in
theorem completeJoint_local (s : Availability D) (inputs : AvailabilityInputs D) (n : ℕ) :
    Local inputs (.joint n) s (s.availabilityCompleteJoint inputs n) := by
  simp only [availabilityCompleteJoint]
  split
  · exact .of_setAvail rfl rfl rfl rfl rfl rfl rfl rfl fun _ _ => rfl
  · exact .of_setAvail rfl rfl rfl rfl rfl rfl rfl rfl fun hteleop n => hteleop _
  · exact .of_setAvail rfl rfl rfl rfl rfl rfl rfl rfl fun _ _ => rfl
  · exact .of_setAvail rfl rfl rfl rfl rfl rfl rfl rfl fun _ _ => rfl

omit [CDouble D] in
theorem completeJoint_record (s : Availability D) (inputs : AvailabilityInputs D) (n : ℕ) :
    (s.availabilityCompleteJoint inputs n).avail (.joint n) = { s.avail (.joint n) with
      phase := .idle, returnMotionState := .free, state := .available } := by
  simp only [availabilityCompleteJoint]
  split <;> exact avail_setAvail _ _ _

theorem completeJoint_switched (hlocal : Local inputs (.joint n) s s₁)
    (hfault : (s₁.avail (.joint n)).fault = (s.avail (.joint n)).fault)
    (hstate : (s.avail (.joint n)).state ≠ .disabling) :
    Switched size inputs (.joint n) s false (s₁.availabilityCompleteJoint inputs n) := by
  have hrecord := completeJoint_record s₁ inputs n
  have hup : ((s₁.availabilityCompleteJoint inputs n).avail (.joint n)).state = .available := by rw [hrecord]
  apply Switched.calm (hlocal.trans (completeJoint_local s₁ inputs n))
  refine ⟨.inl (hrecord ▸ hfault), fun _ hlingers => absurd hlingers.1 hstate, fun _ _ => ?_,
    fun _ _ => hup, fun _ hjoint => absurd rfl (hjoint n), ?_, ?_⟩
  · simp [hup]
  · simp [hup]
  · simp [hrecord]

theorem startHoming_local (h : s.availabilityStartHoming inputs n = some s₁) :
    Local inputs (.joint n) s s₁ ∧ s₁.avail = s.avail := by
  simp only [availabilityStartHoming, Option.ite_none_left_eq_some, Option.some.injEq] at h
  obtain ⟨-, rfl⟩ := h
  exact ⟨⟨fun _ _ => rfl, fun _ _ => rfl, rfl, rfl, rfl, rfl, rfl, id, fun _ => calibration_update rfl⟩, rfl⟩

end Availability

end LinuxcncCtrl
