import LinuxcncCtrl.Sanity.MachineOnScan
import LinuxcncCtrl.Proofs.Availability

/-! Machine On in every run. While the scan waits at a spindle the machine is busy and takes no command, so the
invariant of the scan is kept by every step. -/

namespace LinuxcncCtrl

open Lib

variable {D : Type}

namespace Availability

variable {s s' : Availability D} {r : Resource} {size : MachineSize} {inputs : AvailabilityInputs D} [CDouble D]

omit [CDouble D] in
theorem begin_scanning (h : s.Scanning size) (hbusy : ¬s.availabilityTransitionBusy size = true)
    (inputs : AvailabilityInputs D) (r : Resource) (etime : D) :
    (s.availabilityBegin r true etime).Scanning size := by
  have hlocal : Local inputs r s (s.availabilityBegin r true etime) :=
    .of_setAvail rfl rfl rfl rfl rfl rfl rfl rfl fun _ _ => rfl
  refine h.of_local hlocal (h.idle hbusy) ?_ ?_
  · simp [availabilityBegin, setAvail, AvailabilityStatus.availabilityBegin]
  · simp only [availabilityBegin, setAvail, AvailabilityStatus.availabilityBegin,
      Function.update_self]
    split_ifs <;> simp

omit [CDouble D] in
theorem refuse_scanning (h : s.Scanning size) (status : CommandStatus) : (s.refuse status).Scanning size :=
  ⟨⟨h.latched, h.started⟩, h.behind, h.waiting⟩

omit [CDouble D] in
theorem beginJointRelease_scanning (h : s.Scanning size) (hbusy : ¬s.availabilityTransitionBusy size = true)
    (inputs : AvailabilityInputs D) (n : ℕ) (etime : D) :
    (s.availabilityBeginJointRelease n etime).Scanning size := by
  have hlocal : Local inputs (.joint n) s (s.availabilityBeginJointRelease n etime) :=
    .of_setAvail rfl rfl rfl rfl rfl rfl rfl rfl fun _ _ => rfl
  refine h.of_local hlocal (h.idle hbusy) ?_ ?_
  · simp [availabilityBeginJointRelease, setAvail]
  · simp [availabilityBeginJointRelease, setAvail]

omit [CDouble D] in
theorem Drops.scanning {fault : AvailabilityFault} (h : s.Scanning size)
    (hbusy : ¬s.availabilityTransitionBusy size = true) (hdrops : Drops r fault s s')
    (hlocal : Local inputs r s s') : s'.Scanning size := by
  refine h.of_local hlocal (h.idle hbusy) hdrops.self.initial fun hfault => ?_
  cases hdrops.self.state.symm.trans hfault

theorem Commanded.scanning (hcommanded : Commanded size s s') (h : s.Scanning size)
    (inputs : AvailabilityInputs D) : s'.Scanning size := by
  cases hcommanded with
  | answered havail _ hon hcursor =>
    obtain ⟨⟨hlatched, hstarted⟩, hbehind, hwaiting⟩ := h
    refine ⟨⟨?_, ?_⟩, ?_, ?_⟩
    · rw [havail]
      exact hlatched
    · rw [havail, hon, hcursor]
      exact hstarted
    · unfold Behind at hbehind ⊢
      rw [havail, hon, hcursor]
      exact hbehind
    · rw [havail, hon, hcursor]
      exact hwaiting
  | began hbusy r etime _ => exact begin_scanning h hbusy inputs r etime
  | settling hbusy n etime => exact beginJointRelease_scanning h hbusy inputs n etime
  | released hbusy r etime hcontrolled =>
    exact (release_drops hcontrolled _ etime).scanning h hbusy (release_local inputs s _ _ _)

theorem Commanded.machineOn (hcommanded : Commanded size s s') (inputs : AvailabilityInputs D) :
    s'.availabilityMachineOn = s.availabilityMachineOn := by
  cases hcommanded with
  | answered _ _ hon _ => exact hon
  | began => rfl
  | settling => rfl
  | released _ r etime _ => exact (release_local inputs s r _ etime).machineOn

omit [CDouble D] in
theorem enable_scanning (h : s.Scanning size) : (s.enable inputs).Scanning size := by
  simp only [enable]
  split_ifs with hon henable
  · exact h
  · exact ⟨⟨h.latched, h.started⟩, h.behind, h.waiting⟩
  · have hoff : s.availabilityMachineOn = false := by
      simp only [Bool.or_eq_true, not_or, Bool.not_eq_true] at hon
      exact hon.2
    refine ⟨⟨h.latched, fun n hn hcontrolled hphase => ?_⟩, fun _ n _ hlt => ?_, fun _ hpos => ?_⟩
    · exact absurd (hoff.symm.trans (h.started n hn hcontrolled hphase).1) (by decide)
    · exact absurd hlt (Nat.not_lt_zero n)
    · exact absurd hpos (Nat.lt_irrefl 0)

variable {action : AvailabilityAction D} {actions : List (AvailabilityAction D)}

theorem scanning_step (hstep : s.step size action = some s') (hinv : s.Inv)
    (h : s.Scanning size) : s'.Scanning size := by
  have hinv' : s'.Inv := inv_step hstep hinv
  cases action with
  | process inputs =>
    cases hstep
    exact (processAvailability_scanning h hinv').1
  | setJoint inputs joint available =>
    cases hstep
    exact (setJointAvailability_commanded _ joint available).scanning (refuse_scanning h _) inputs
  | setSpindle inputs spindle available =>
    cases hstep
    exact (setSpindleAvailability_commanded _ spindle available).scanning (refuse_scanning h _) inputs
  | enable inputs =>
    cases hstep
    exact enable_scanning h
  | disable inputs =>
    cases hstep
    have hflag : Started size { s with enabling := false } := ⟨h.latched, h.started⟩
    exact hflag.cancel true _
  | cancel inputs all =>
    cases hstep
    exact h.toStarted.cancel all _
  | other motion =>
    cases hstep
    exact ⟨⟨h.latched, h.started⟩, h.behind, h.waiting⟩

theorem scanning_run {s₀ : Availability D} (h : s₀.Configured)
    (hpending : s₀.availabilityMachineOn = false) (hrun : Run (step size) s₀ actions s) :
    s.Inv ∧ s.Scanning size := by
  apply hrun.invariant
  · exact ⟨inv_configured h, h.scanning hpending⟩
  · rintro s action s' hstep ⟨hinv, hscanning⟩
    exact ⟨inv_step hstep hinv, scanning_step hstep hinv hscanning⟩

/-- Without an ENABLE command, a Machine On that is over stays over. -/
theorem over_step (hstep : s.step size action = some s')
    (hnot : ∀ inputs, action ≠ .enable inputs) (h : s.availabilityMachineOn = false) :
    s'.availabilityMachineOn = false := by
  cases action with
  | process inputs =>
    cases hstep
    rw [processAvailability_eq]
    refine (rest_over ?_ _).1
    rw [Bool.eq_false_iff]
    intro hon
    exact absurd (h.symm.trans ((checkEnable_flags s).1 hon)) (by decide)
  | setJoint inputs joint available =>
    cases hstep
    exact ((setJointAvailability_commanded (s.refuse .ok) joint available).machineOn inputs).trans h
  | setSpindle inputs spindle available =>
    cases hstep
    exact ((setSpindleAvailability_commanded (s.refuse .ok) spindle available).machineOn inputs).trans h
  | enable inputs => exact absurd rfl (hnot inputs)
  | disable inputs =>
    cases hstep
    exact (availabilityCancel_flags size _ true _).2.1
  | cancel inputs all =>
    cases hstep
    exact (availabilityCancel_flags size s all _).2.1
  | other motion =>
    cases hstep
    exact h

theorem over_run {t t' : Availability D}
    (hnot : ∀ inputs, .enable inputs ∉ actions) (hrun : Run (step size) t actions t')
    (h : t.availabilityMachineOn = false) : t'.availabilityMachineOn = false := by
  induction hrun with
  | nil => exact h
  | snoc _ hstep ih =>
    refine over_step hstep (fun inputs heq => ?_) (ih fun inputs hmem => ?_)
    · exact hnot inputs (List.mem_append_right _ (heq ▸ List.mem_singleton_self _))
    · exact hnot inputs (List.mem_append_left _ hmem)

/-- An acquisition that Machine On has begun and that has not ended. -/
def Acquiring (s : Availability D) (n : ℕ) : Prop :=
  (s.avail (.spindle n)).controlled = true ∧ (s.avail (.spindle n)).phase = .initialAck

/-- Machine On waits for its spindles, one at a time; a repeated ENABLE changes nothing; and after a cancel,
be it a command or in the middle of a call, no `enabling` is set without a new ENABLE. -/
theorem machineOn_waits {s₀ : Availability D} {actions : List (AvailabilityAction D)} (h : s₀.Configured)
    (hpending : s₀.availabilityMachineOn = false) (hrun : Run (step size) s₀ actions s) :
    (∀ inputs s', s.step size (.process inputs) = some s' →
      (s.availabilityMachineOn = true → s'.availabilityMachineOn = false → s'.enabling = true →
        Enabled size inputs s') ∧
      (s.availabilityMachineOn = false ∨ s'.availabilityMachineOn = true → s'.enabling = true →
        s.enabling = true)) ∧
    (∀ n < size.spindles, ∀ m < size.spindles, s.Acquiring n → s.Acquiring m → n = m) ∧
    (s.availabilityMachineOn = true ∨ s.enabling = true ∨ s.enableFlag = true →
      ∀ inputs, s.step size (.enable inputs) = some s) ∧
    (∀ (t : Availability D) all etime, (t.availabilityCancel size all etime).availabilityMachineOn = false) ∧
    ∀ t : Availability D, t.availabilityMachineOn = false →
      (∀ inputs rest, let t' := (List.foldl (processResource size inputs) t rest).machineOn size inputs
        t'.availabilityMachineOn = false ∧ (t'.enabling = true → t.enabling = true)) ∧
      ∀ more t', (∀ inputs, .enable inputs ∉ more) → Run (step size) t more t' →
        t'.availabilityMachineOn = false ∧
          ∀ inputs, (t'.processAvailability size inputs).enabling = true → t'.enabling = true := by
  obtain ⟨hinv, hscanning⟩ := scanning_run h hpending hrun
  refine ⟨fun inputs s' hstep => ?_, fun n hn m hm hacquiring hacquiring' => ?_, fun hon inputs => ?_,
    fun t all etime => (availabilityCancel_flags size t all etime).2.1,
    fun t hover => ⟨fun inputs rest => ?_, ?_⟩⟩
  · have hinv' : s'.Inv := inv_step hstep hinv
    cases hstep
    exact (processAvailability_scanning hscanning hinv').2
  · obtain ⟨-, hcursor, -⟩ := hscanning.started n hn hacquiring.1 hacquiring.2
    obtain ⟨-, hcursor', -⟩ := hscanning.started m hm hacquiring'.1 hacquiring'.2
    rw [hcursor, hcursor']
  · rcases hon with hon | hon | hon <;> simp [step, enable, hon]
  · exact rest_over hover rest
  · intro more t' hnot hrun'
    have hover' : t'.availabilityMachineOn = false := over_run hnot hrun' hover
    refine ⟨hover', fun inputs henabling => ?_⟩
    rw [processAvailability_eq] at henabling
    have hoff : (t'.checkEnable size inputs).availabilityMachineOn = false := by
      rw [Bool.eq_false_iff]
      intro hon
      exact absurd (hover'.symm.trans ((checkEnable_flags t').1 hon)) (by decide)
    exact (checkEnable_flags t').2.1 ((rest_over hoff _).2 henabling)

local instance scanDouble : CDouble ℤ := intDouble

/-- Motion is off and spindle 0 is configured initially available. -/
def initialSpindle : Availability ℤ :=
  { configuredMachine with
    avail := fun _ => ⟨true, true, false, false, .idle, 0, .free, .disabled, .none, 5, 0⟩
    enableFlag := false }

def allAcknowledged : AvailabilityInputs ℤ := { acknowledged false with ack := fun _ => true }

/-- ENABLE, and two calls that find the acknowledge low. -/
def spindleRequested : List (AvailabilityAction ℤ) :=
  [.enable (acknowledged false), .process (acknowledged false), .process (acknowledged false)]

/-- Machine On acquires the spindle and then sets `enabling`. -/
theorem machineOn_waits_oneSpindle : ∃ s : Availability ℤ,
    Run (step ⟨0, 1⟩) initialSpindle spindleRequested s ∧ s.availabilityMachineOn = true ∧
      (s.avail (.spindle 0)).phase = .initialAck ∧
      (s.processAvailability ⟨0, 1⟩ allAcknowledged).enabling = true ∧
      Enabled ⟨0, 1⟩ allAcknowledged (s.processAvailability ⟨0, 1⟩ allAcknowledged) := by
  have hconfigured : initialSpindle.Configured :=
    ⟨fun _ _ => rfl, fun _ _ => rfl, fun _ _ => rfl, fun _ => rfl⟩
  have hrun : Run (step ⟨0, 1⟩) initialSpindle spindleRequested
      ((exec (step ⟨0, 1⟩) initialSpindle spindleRequested).getD initialSpindle) :=
    .getD_exec (by decide +kernel)
  obtain ⟨henabled, -⟩ := (machineOn_waits hconfigured rfl hrun).1 allAcknowledged _ rfl
  exact ⟨_, hrun, by decide +kernel, by decide +kernel, by decide +kernel,
    henabled (by decide +kernel) (by decide +kernel) (by decide +kernel)⟩

end Availability

end LinuxcncCtrl
