import LinuxcncCtrl.Sanity.AvailabilityCommands

/-! Acquisition is sound. In every run a controlled resource becomes available only through the
handshake, and every call of `process_availability` leaves available only what it has seen
acknowledged. -/

namespace LinuxcncCtrl

open Lib

variable {D : Type} {r : Resource}

namespace Availability

variable {s s' : Availability D} {size : MachineSize} {inputs : AvailabilityInputs D} [CDouble D]
  {action : AvailabilityAction D}

/-- The call samples the acknowledge of `r` low with its request low, and asserts the request. -/
def Raised (r : Resource) (t : Availability D) (action : AvailabilityAction D) (t' : Availability D) : Prop :=
  ∃ inputs, action = .process inputs ∧ inputs.ack r = false ∧ (t.pins r).request = false ∧
    (t.avail r).targetAvailable = true ∧ (t'.pins r).request = true

/-- The call starts the homing of a joint that has waited for free mode. -/
def HomingStarted (r : Resource) (t : Availability D) (action : AvailabilityAction D) (t' : Availability D) :
    Prop :=
  ∃ inputs, action = .process inputs ∧ (t.avail r).state = .homing ∧ (t.avail r).phase = .waitFree ∧
    (t'.avail r).phase = .waitHomeStart

theorem raised_step (hinv : s.Inv) (hr : (s.avail r).controlled = true) (hstep : s.step size action = some s')
    (h : (s'.pins r).request = true ∧ (s'.avail r).targetAvailable = true) :
    (s.pins r).request = true ∧ (s.avail r).targetAvailable = true ∨ Raised r s action s' := by
  rcases step_active hinv hr hstep (.inl h) with ⟨havail, hpins⟩ | ⟨inputs, rfl, havail, hpins, hmoves, htarget⟩
  · rw [havail, hpins] at h
    exact .inl h
  · have hbefore : (s.avail r).targetAvailable = true := havail ▸ hmoves.target htarget
    have hinv' : (s'.avail r).Inv r (s'.pins r).request := inv_step hstep hinv r hmoves.controlled
    rw [h.1] at hinv'
    rcases hmoves.raised (hinv'.requested htarget) with hrequest | hack
    · exact .inl ⟨hpins ▸ hrequest, hbefore⟩
    · cases hrequest : (s.pins r).request with
      | true => exact .inl ⟨rfl, hbefore⟩
      | false => exact .inr ⟨inputs, rfl, hack, hrequest, hbefore, h.1⟩

theorem homing_step (hinv : s.Inv) (hr : (s.avail r).controlled = true) (hstep : s.step size action = some s')
    (h : (s'.avail r).state = .homing ∧ (s'.avail r).phase ≠ .waitFree) :
    (s.avail r).state = .homing ∧ (s.avail r).phase ≠ .waitFree ∨ HomingStarted r s action s' := by
  rcases step_active hinv hr hstep (.inr (.inl h.1)) with ⟨havail, -⟩ | ⟨inputs, rfl, havail, -, hmoves, -⟩
  · exact .inl (havail ▸ h)
  · obtain ⟨hstate, hstarted⟩ := hmoves.homing h.1 h.2
    rw [havail] at hstate hstarted
    by_cases hfree : (s.avail r).phase = .waitFree
    · exact .inr ⟨inputs, rfl, hstate, hfree, hstarted hfree⟩
    · exact .inl ⟨hstate, hfree⟩

/-- What entitles `r` to become available in the call with `inputs` after the run to `s`. The target is set by
`availability_begin` and reset by every release, so it lasts as long as the attempt. The feedback is compared in
the state in which the iteration starts. -/
structure Earned (size : MachineSize) (inputs : AvailabilityInputs D) (s₀ : Availability D)
    (actions : List (AvailabilityAction D)) (s : Availability D) (r : Resource) : Prop where
  acknowledged : inputs.ack r = true
  requested : (s.pins r).request = true
  raised : Since (step size) (fun t => (t.avail r).targetAvailable = true) (Raised r) s₀ actions s
  homed : ∀ n, r = .joint n → inputs.homed n = true
  position : ∀ n, r = .joint n →
    CDouble.fabs (inputs.motorPosFb n - ((s.avail r).heldPosition +
      ((s.reached size inputs r).joints n).backlashFilt + ((s.reached size inputs r).joints n).motorOffset)) ≤
        ((s.reached size inputs r).joints n).minFerror ∨
    (s.avail r).state = .homing ∧ inputs.homeIdle n = true ∧
      Since (step size) (fun t => (t.avail r).targetAvailable = true) (HomingStarted r) s₀ actions s

variable {s₀ : Availability D} {actions : List (AvailabilityAction D)}

theorem inv_run (h : s₀.Configured) (hrun : Run (step size) s₀ actions s) : s.Inv :=
  hrun.invariant (inv_configured h) fun _ _ _ => inv_step

theorem controlled_step (hstep : s.step size action = some s') (r : Resource) :
    (s'.avail r).controlled = (s.avail r).controlled := by
  rcases step_cases hstep r with hpassive | ⟨inputs, -, -, heased, hkept⟩
  · exact hpassive.controlled
  · exact (Passive.kept hkept).controlled.trans ((processResource_turned _ r).controlled.trans heased.controlled)

/-- What holds of a controlled resource only after an event, and only while its target is set. -/
theorem since_run {P : Availability D → Prop} {event : Availability D → AvailabilityAction D → Availability D → Prop}
    (h : s₀.Configured) (hrun : Run (step size) s₀ actions s) (hr : (s.avail r).controlled = true)
    (hnot : (s₀.avail r).controlled = true → ¬P s₀)
    (htarget : ∀ t : Availability D, (t.avail r).Inv r (t.pins r).request → P t →
      (t.avail r).targetAvailable = true)
    (hstep : ∀ {t : Availability D} {action t'}, t.Inv → (t.avail r).controlled = true →
      t.step size action = some t' → P t' → P t ∨ event t action t') (hP : P s) :
    Since (step size) (fun t => (t.avail r).targetAvailable = true) event s₀ actions s := by
  have hsame : (s.avail r).controlled = (s₀.avail r).controlled :=
    hrun.invariant (P := fun t => (t.avail r).controlled = (s₀.avail r).controlled) rfl
      fun _ _ _ hstep => (controlled_step hstep r).trans
  refine hrun.since (I := fun t => t.Inv ∧ (t.avail r).controlled = true) ⟨inv_configured h, hsame ▸ hr⟩ ?_
    (hnot (hsame ▸ hr))
    (fun t ht => htarget t (ht.1 r ht.2)) (fun t _ t' hs ht => hstep ht.1 ht.2 hs) hP
  intro t _ t' hs ht
  exact ⟨inv_step hs ht.1, (controlled_step hs r).trans ht.2⟩

/-- What becomes available has earned it. -/
theorem earned_of_step (h : s₀.Configured) (hrun : Run (step size) s₀ actions s)
    (hstep : s.step size action = some s') (hr : (s.avail r).controlled = true)
    (hdown : (s.avail r).state ≠ .available) (hup : (s'.avail r).state = .available) :
    ∃ inputs, action = .process inputs ∧ Earned size inputs s₀ actions s r := by
  rcases step_active (inv_run h hrun) hr hstep (.inr (.inr hup)) with
    ⟨havail, -⟩ | ⟨inputs, rfl, havail, hpins, hmoves, htarget⟩
  · exact absurd (havail ▸ hup) hdown
  · obtain ⟨hack, hhomed⟩ := hmoves.up hup
    obtain ⟨hrequest, hjoint⟩ := hmoves.entered (havail ▸ hdown) hup
    rw [hpins] at hrequest
    rw [havail] at hjoint
    refine ⟨inputs, rfl, hack, hrequest, ?_, hhomed, fun n hn => (hjoint n hn).imp (fun hvalid => ?_) ?_⟩
    · refine since_run h hrun hr (fun _ hfirst => ?_) (fun _ _ hP => hP.2) raised_step
        ⟨hrequest, havail ▸ hmoves.target htarget⟩
      exact absurd ((h.request r).symm.trans hfirst.1) (by decide)
    · subst hn
      rw [← havail]
      unfold validateJointPosition at hvalid
      simp only [Bool.and_eq_true, decide_eq_true_eq] at hvalid
      exact hvalid.2
    · rintro ⟨hstate, hphase, hidle⟩
      refine ⟨hstate, hidle, ?_⟩
      refine since_run h hrun hr (fun hr₀ hfirst => ?_) (fun _ hinv hP => hinv.active (.inr (.inl hP.1))) homing_step
        ⟨hstate, hphase⟩
      cases (h.state r hr₀).symm.trans hfirst.1

/-- Acquisition is sound in every run of a configured machine. What becomes available has gone through the
handshake in the current attempt, and a joint has been validated or homed; what a call leaves available it has
seen acknowledged, and homed if it is a joint; and what its iteration finds available without an acknowledge is no
longer available, has its request low and a fault latched. -/
theorem availability_sound (h : s₀.Configured) (hrun : Run (step size) s₀ actions s) :
    (∀ action s' r, s.step size action = some s' → (s.avail r).controlled = true →
      (s.avail r).state ≠ .available → (s'.avail r).state = .available →
        ∃ inputs, action = .process inputs ∧ Earned size inputs s₀ actions s r) ∧
    ∀ inputs s', s.step size (.process inputs) = some s' →
      (∀ n < size.joints, (s.avail (.joint n)).controlled = true →
        (s'.avail (.joint n)).state = .available → inputs.ack (.joint n) = true ∧ inputs.homed n = true) ∧
      (∀ n < size.spindles, (s.avail (.spindle n)).controlled = true →
        (s'.avail (.spindle n)).state = .available → inputs.ack (.spindle n) = true) ∧
      ∀ r ∈ size.order, (s.avail r).controlled = true →
        ((s.reached size inputs r).avail r).state = .available → inputs.ack r = false →
          (s'.avail r).state ≠ .available ∧ (s'.pins r).request = false ∧ (s'.avail r).fault ≠ .none := by
  refine ⟨fun action s' r hstep hr => earned_of_step h hrun hstep hr, fun inputs s' hstep => ?_⟩
  cases hstep
  have hinv := inv_run h hrun
  refine ⟨fun n hn hr hup => ?_, fun n hn hr hup => ?_, fun r hmem hr hup hlow => ?_⟩
  · obtain ⟨hack, hhomed⟩ := call_up hinv (joint_mem_order hn) hr hup
    exact ⟨hack, hhomed n rfl⟩
  · exact (call_up hinv (spindle_mem_order hn) hr hup).1
  · obtain ⟨-, hiterated, hkept⟩ := call_iterated hinv hmem hr
    rcases hiterated.outcome with ⟨fault, hfault, hdown⟩ | hmoves
    · rcases hkept with heased | hbegun
      · have hdown' := heased.down hdown
        exact ⟨by simp [hdown'.state], hdown'.request, hdown'.fault ▸ hfault⟩
      · have hrest := hbegun.rest
        simp [hdown.state] at hrest
    · cases hlow.symm.trans (hmoves.lost hup)

local instance intDouble : CDouble ℤ where
  fabs x := |x|
  isfinite _ := true
  decidableLE := inferInstance

/-- A homed joint 0 and a spindle 0, both controlled and disabled. -/
def configuredMachine : Availability ℤ where
  avail _ := ⟨true, false, false, false, .idle, 0, .free, .disabled, .none, 5, 0⟩
  pins _ := {}
  joints _ :=
    ⟨0, 0, 0, 0, 0, 0, 0, 0, 0, 0, 0, ⟨0, 0, 0, 0, 0, 0, false, false⟩, false, false, false, false,
      true, false⟩
  spindles _ := ⟨0, 0, false, false, .none, false, false, false, false, false, false⟩
  enableFlag := true

/-- Inputs at time 0 with the acknowledge of joint 0 as given. -/
def acknowledged (ack : Bool) : AvailabilityInputs ℤ where
  now := 0
  stamp := 0
  enable := true
  homingInhibit := false
  motionState := .free
  ack r := ack && r = .joint 0
  homed _ := true
  homing _ := false
  homeIdle _ := true
  motorPosFb _ := 0
  releaseState _ := .ready
  tpQueueDepth := 0
  tpSynchronized := false
  tpSpindle := 0
  disableJoint joint := joint
  teleopJoint joint := joint
  teleopFlags := (false, false)

/-- Joint 0 is to be acquired and its acknowledge is sampled low. -/
def jointRequested : List (AvailabilityAction ℤ) :=
  [.setJoint (acknowledged false) 0 true, .process (acknowledged false)]

/-- The acknowledge rises, and the joint becomes available. -/
theorem availability_sound_one_joint : ∃ s s' : Availability ℤ, configuredMachine.Configured ∧
    Run (step ⟨1, 1⟩) configuredMachine jointRequested s ∧
    s.step ⟨1, 1⟩ (.process (acknowledged true)) = some s' ∧ (s'.avail (.joint 0)).state = .available ∧
    Earned ⟨1, 1⟩ (acknowledged true) configuredMachine jointRequested s (.joint 0) := by
  have hconfigured : configuredMachine.Configured :=
    ⟨fun _ _ => rfl, fun _ _ => rfl, fun _ _ => rfl, fun _ => rfl⟩
  have hrun : Run (step ⟨1, 1⟩) configuredMachine jointRequested _ := .of_exec rfl
  obtain ⟨_, ⟨⟩, hearned⟩ := (availability_sound hconfigured hrun).1 (.process (acknowledged true)) _ (.joint 0)
    rfl rfl (by decide) rfl
  exact ⟨_, _, hconfigured, hrun, rfl, rfl, hearned⟩

end Availability

end LinuxcncCtrl
