import LinuxcncCtrl.Sanity.AvailabilitySweep
import LinuxcncCtrl.Proofs.Availability

/-! The availability pins after a call of `process_availability`. The requests are right after every call;
the other pins are right when the call is undisturbed. The condition is on the state before the call, so the
release that a low enable input causes at its start is first reduced to one resource. -/

namespace LinuxcncCtrl

open Lib

variable {D : Type}

namespace Availability

variable {s s' : Availability D} {r r' : Resource} {size : MachineSize} {inputs : AvailabilityInputs D}
  {l : List Resource} [CDouble D]

section Entering

variable {etime : D} {t : Availability D} {code : AvailabilityFault}

/-- The release of `r` looks at its record, its pins and the joint. -/
theorem release_congr (havail : t.avail r = s.avail r) (hpins : t.pins r = s.pins r)
    (hjoints : ∀ n, r = .joint n → t.joints n = s.joints n) :
    (t.release code etime r).avail r = (s.release code etime r).avail r ∧
      (t.release code etime r).pins r = (s.release code etime r).pins r := by
  cases r with
  | joint n =>
    simp only [release, availabilityReleaseJoint, havail, hjoints n rfl]
    split_ifs <;> simp [setJoint, lowerRequest, setAvail, havail, hpins]
  | spindle n =>
    simp only [release, availabilityReleaseSpindle, havail]
    split_ifs <;> simp [setSpindle, lowerRequest, setAvail, havail, hpins]

theorem release_others (s : Availability D) (hr : r ≠ r') (code : AvailabilityFault) (etime : D) :
    (s.release code etime r').avail r = s.avail r ∧ (s.release code etime r').pins r = s.pins r ∧
      ∀ n, r = .joint n → (s.release code etime r').joints n = s.joints n := by
  have hjoints : ∀ n, r = .joint n → (s.release code etime r').joints n = s.joints n := by
    rintro n rfl
    cases r' with
    | spindle n' =>
      simp only [release, availabilityReleaseSpindle]
      split_ifs <;> rfl
    | joint n' =>
      have hn : n ≠ n' := fun heq => hr (congrArg Resource.joint heq)
      simp only [release, availabilityReleaseJoint]
      split
      · rfl
      · simp [setJoint, lowerRequest, setAvail, hn]
  cases hcontrolled : (s.avail r').controlled with
  | true =>
    obtain ⟨havail, hpins⟩ := (release_drops hcontrolled code etime).others r hr
    exact ⟨havail, hpins, hjoints⟩
  | false =>
    rw [release_free hcontrolled]
    exact ⟨rfl, rfl, fun _ _ => rfl⟩

/-- A cancel of all resources makes of each what a release of it alone makes of it. -/
theorem foldl_cancel_at (hnodup : l.Nodup) (s : Availability D) :
    (r ∈ l → (l.foldl (cancelResource true etime) s).avail r = (s.release (s.avail r).fault etime r).avail r ∧
      (l.foldl (cancelResource true etime) s).pins r = (s.release (s.avail r).fault etime r).pins r) ∧
    (r ∉ l → (l.foldl (cancelResource true etime) s).avail r = s.avail r ∧
      (l.foldl (cancelResource true etime) s).pins r = s.pins r) := by
  induction l generalizing s with
  | nil => exact ⟨nofun, fun _ => ⟨rfl, rfl⟩⟩
  | cons r' l ih =>
    obtain ⟨hr', hnodup⟩ := List.nodup_cons.mp hnodup
    rw [List.foldl_cons, cancelResource_true]
    obtain ⟨hinside, houtside⟩ := ih hnodup (s.release (s.avail r').fault etime r')
    by_cases hr : r = r'
    · subst hr
      exact ⟨fun _ => houtside hr', fun hnot => absurd List.mem_cons_self hnot⟩
    · obtain ⟨havail, hpins, hjoints⟩ := release_others s hr (s.avail r').fault etime
      refine ⟨fun hmem => ?_, fun hnot => ?_⟩
      · obtain ⟨havail', hpins'⟩ := hinside (List.mem_of_ne_of_mem hr hmem)
        rw [havail', hpins', havail]
        exact release_congr havail hpins hjoints
      · obtain ⟨havail', hpins'⟩ := houtside fun hmem => hnot (List.mem_cons_of_mem r' hmem)
        exact ⟨havail'.trans havail, hpins'.trans hpins⟩

theorem release_calibration (s : Availability D) (code : AvailabilityFault) (etime : D) (r : Resource) (n : ℕ) :
    ((s.release code etime r).joints n).calibration = (s.joints n).calibration := by
  cases r <;> simp only [release, availabilityReleaseJoint, availabilityReleaseSpindle] <;> split
  · rfl
  · refine calibration_update ?_ n
    rfl
  · rfl
  · rfl

theorem foldl_cancel_calibration (l : List Resource) (s : Availability D) (etime : D) (n : ℕ) :
    ((l.foldl (cancelResource true etime) s).joints n).calibration = (s.joints n).calibration := by
  induction l generalizing s with
  | nil => rfl
  | cons r l ih =>
    rw [List.foldl_cons, cancelResource_true, ih]
    exact release_calibration s _ etime r n

theorem foldl_cancel_release (havail : t.avail = s.avail) (hpins : t.pins = s.pins) (hjoints : t.joints = s.joints)
    (hnodup : l.Nodup) (hr : r ∈ l) :
    (l.foldl (cancelResource true etime) t).avail r = (s.release (s.avail r).fault etime r).avail r ∧
      (l.foldl (cancelResource true etime) t).pins r = (s.release (s.avail r).fault etime r).pins r ∧
      ∀ n, ((l.foldl (cancelResource true etime) t).joints n).calibration =
        ((s.release (s.avail r).fault etime r).joints n).calibration := by
  obtain ⟨havail', hpins'⟩ := (foldl_cancel_at hnodup t).1 hr
  rw [havail', hpins', havail]
  obtain ⟨hrecord, hwires⟩ := release_congr (congrFun havail r) (congrFun hpins r) fun n _ => congrFun hjoints n
  refine ⟨hrecord, hwires, fun n => ?_⟩
  rw [foldl_cancel_calibration, release_calibration, hjoints]

end Entering

/-- After the start of the call, `r` is as if it had been entered alone. -/
theorem checkEnable_entering (s : Availability D) (hr : r ∈ size.order) :
    (s.checkEnable size inputs).avail r = (s.entering inputs r).avail r ∧
      (s.checkEnable size inputs).pins r = (s.entering inputs r).pins r ∧
      ∀ n, ((s.checkEnable size inputs).joints n).calibration = ((s.entering inputs r).joints n).calibration := by
  unfold checkEnable entering
  split
  · rw [availabilityCancel_eq, Bool.true_or]
    exact foldl_cancel_release rfl rfl rfl (order_nodup size) hr
  · exact ⟨rfl, rfl, fun _ => rfl⟩

theorem checkEnable_flag (s : Availability D) : (s.checkEnable size inputs).enableFlag = s.enableFlag := by
  unfold checkEnable
  split
  · exact (availabilityCancel_flags size s true _).1
  · rfl

theorem checkEnable_fails (s : Availability D) (hr : r ∈ size.order) :
    (s.checkEnable size inputs).fails inputs r = (s.entering inputs r).fails inputs r := by
  obtain ⟨havail, hpins, hjoints⟩ := checkEnable_entering s hr
  exact fails_congr havail hpins hjoints

theorem checkEnable_lingers (s : Availability D) (hr : r ∈ size.order) :
    (s.entering inputs r).Lingers inputs r → (s.checkEnable size inputs).Lingers inputs r := by
  unfold Lingers
  rw [(checkEnable_entering s hr).1]
  exact id

/-- A call in which no failure reaches the others and Machine On finds nothing to do. -/
theorem swept_truthful (hteleop : inputs.Calibrated) (hr : r ∈ size.order)
    (hquiet : (∀ r ∈ size.order, s.fails inputs r = false) ∨ s.enableFlag = false)
    (h : s.availabilityMachineOn = true → inputs.enable = true ∧
      (((∀ r ∈ size.order, s.fails inputs r = false ∧
        ((s.avail r).controlled = true → (s.avail r).fault = .none)) ∧ s.ScanWaits size inputs) ∨
      ∀ r ∈ size.order, (s.avail r).controlled = true → s.Subsides inputs r)) :
    ((size.order.foldl (processResource size inputs) s).machineOn size inputs).Truthful r := by
  have hswept : Swept inputs size.order s (size.order.foldl (processResource size inputs) s) :=
    foldl_swept hteleop (order_nodup size) hquiet
  generalize size.order.foldl (processResource size inputs) s = s' at hswept ⊢
  cases hpending : s.availabilityMachineOn with
  | false =>
    rw [machineOn_over (hswept.machineOn.trans hpending)]
    exact hswept.truthful r hr
  | true =>
    obtain ⟨henable, ⟨hcalm, hscan⟩ | hsubsides⟩ := h hpending
    · have hfaulted : s'.faulted size = false := by
        apply faulted_false
        intro r' hr' hcontrolled
        obtain ⟨hsame, -, hown, -⟩ := hswept.each r' hr'
        rcases (hown (hcalm r' hr').1).fault with hkept | hnone
        · exact hkept.trans ((hcalm r' hr').2 (hsame ▸ hcontrolled))
        · exact hnone
      obtain ⟨havail, hpins⟩ := machineOn_idle henable hfaulted fun n hle hlt hpassed hc hi => by
        have hmem := spindle_mem_order hlt
        obtain ⟨hcontrolled, hinitial, hown, -⟩ := hswept.each _ hmem
        rw [hcontrolled] at hc
        rw [hinitial] at hi
        rw [hswept.resource] at hle hpassed
        have hpasses : ∀ m, s.availabilityResource ≤ m → m < n → s.Passes inputs m := by
          intro m hm hmn hc hi
          have hmem := spindle_mem_order (hmn.trans hlt)
          obtain ⟨hcontrolled, hinitial, hown, -⟩ := hswept.each _ hmem
          have hup := hpassed m hm hmn (hcontrolled.trans hc) (hinitial.trans hi)
          exact (hown (hcalm _ hmem).1).entered hc (by simp) hup
        obtain ⟨hstate, hack⟩ := hscan n hle hlt hpasses hc hi
        exact (hown (hcalm _ hmem).1).busy hstate hack
      exact (hswept.truthful r hr).congr (congrFun havail r) (congrFun hpins r)
    · have hstate : (s'.avail r).controlled = true → (s'.avail r).state = .disabling := by
        obtain ⟨hcontrolled, -, hcalm, hfell⟩ := hswept.each r hr
        rw [hcontrolled]
        intro h
        rcases hsubsides r hr h with ⟨hquiet, hlingers⟩ | ⟨hfails, hbefore⟩
        · exact (hcalm hquiet).lingers h hlingers
        · exact hfell hfails hbefore
      rcases machineOn_cases s' r with heased | ⟨-, hcontrolled, hrest⟩
      · exact (hswept.truthful r hr).eased heased hstate
      · cases hrest.symm.trans (hstate hcontrolled)

/-- An undisturbed call. -/
theorem call_truthful (hteleop : inputs.Calibrated) (h : s.Undisturbed size inputs) (hr : r ∈ size.order) :
    (s.processAvailability size inputs).Truthful r := by
  rw [processAvailability_eq]
  have hsame : inputs.enable = true → s.checkEnable size inputs = s ∧ ∀ r, s.entering inputs r = s := by
    intro henable
    simp [checkEnable, entering, henable]
  have hpending : (s.checkEnable size inputs).availabilityMachineOn = true →
      inputs.enable = true ∧ s.checkEnable size inputs = s ∧ ∀ r, s.entering inputs r = s :=
    fun hon => ⟨checkEnable_pending hon, hsame (checkEnable_pending hon)⟩
  cases hon : s.enableFlag with
  | false =>
    refine swept_truthful hteleop hr (.inr ((checkEnable_flag s).trans hon)) fun hmachine => ?_
    obtain ⟨henable, hsame, -⟩ := hpending hmachine
    rw [hsame] at hmachine ⊢
    exact ⟨henable, h.machineOn hmachine henable fun hflag => absurd (hon.symm.trans hflag) (by decide)⟩
  | true =>
    rcases h.motion hon with hcalm | ⟨before, r', after, horder, hfails, hbefore⟩
    · refine swept_truthful hteleop hr (.inl fun r hr => (checkEnable_fails s hr).trans (hcalm r hr))
        fun hmachine => ?_
      obtain ⟨henable, hsame, hentering⟩ := hpending hmachine
      rw [hsame] at hmachine ⊢
      exact ⟨henable, h.machineOn hmachine henable fun _ r hr => hentering r ▸ hcalm r hr⟩
    · have hmem : ∀ r ∈ before ++ r' :: after, r ∈ size.order := fun r hr => horder ▸ hr
      have hquiet : ∀ r ∈ before, (s.checkEnable size inputs).fails inputs r = false ∧
          (((s.checkEnable size inputs).avail r).controlled = true →
            (s.checkEnable size inputs).Lingers inputs r) := by
        intro r hr
        obtain ⟨hcalm, hlingers⟩ := hbefore r hr
        have hr := hmem r (List.mem_append_left _ hr)
        rw [checkEnable_fails s hr, (checkEnable_eased s r).controlled]
        exact ⟨hcalm, fun h => checkEnable_lingers s hr (hlingers h)⟩
      obtain ⟨htruthful, hended⟩ : _ ∧ (size.order.foldl (processResource size inputs) _).availabilityMachineOn = _ :=
        horder ▸ foldl_first_failure hteleop (horder ▸ order_nodup size) ((checkEnable_flag s).trans hon)
          ((checkEnable_fails s (hmem r' (by simp))).trans hfails) hquiet
      rw [machineOn_over hended]
      exact htruthful r (horder ▸ hr)

/-- After every call of every run, a controlled resource is requested only to be acquired or kept, or while it
settles. When the calls are undisturbed, the other pins say after each of them what the records say. -/
theorem pins_truthful (size : MachineSize) (s₀ : Availability D) :
    (∀ actions inputs s, Run (step size) s₀ (actions ++ [.process inputs]) s → ∀ r ∈ size.order, s.Entitled r) ∧
      ∀ actions inputs s, RunWhere (step size) (CallUndisturbed size) s₀ (actions ++ [.process inputs]) s →
        ∀ r ∈ size.order, s.Truthful r := by
  refine ⟨fun actions inputs s' hrun r hr => ?_, fun actions inputs s' hrun r hr => ?_⟩
  · obtain ⟨s, -, ⟨⟩⟩ := hrun.last
    rw [processAvailability_eq]
    exact machineOn_entitled (foldl_entitled _ _ (.inl hr))
  · obtain ⟨s, -, hok, ⟨⟩⟩ := hrun.last
    obtain ⟨hteleop, hundisturbed⟩ := hok inputs rfl
    exact call_truthful hteleop hundisturbed hr

local instance pinsDouble : CDouble ℤ := intDouble

/-- An acquired joint loses its acknowledge; it comes first, and nothing after it is left behind. -/
theorem pins_truthful_lost : ∃ s s' : Availability ℤ,
    RunWhere (step ⟨1, 1⟩) (CallUndisturbed ⟨1, 1⟩) configuredMachine
      (jointRequested ++ [.process (acknowledged true)]) s ∧
    s.fails (acknowledged false) (.joint 0) = true ∧ s.step ⟨1, 1⟩ (.process (acknowledged false)) = some s' ∧
    ∀ r ∈ MachineSize.order ⟨1, 1⟩, s'.Truthful r := by
  have hcalm : ∀ {s : Availability ℤ} {inputs : AvailabilityInputs ℤ}, inputs.Calibrated →
      s.availabilityMachineOn = false →
      (∀ r ∈ MachineSize.order ⟨1, 1⟩, (s.entering inputs r).fails inputs r = false) →
      s.CallUndisturbed ⟨1, 1⟩ (.process inputs) := by
    rintro s _ hteleop hover hcalm inputs ⟨⟩
    exact ⟨hteleop, fun _ => .inl hcalm, fun hon => absurd (hover.symm.trans hon) (by decide)⟩
  have hrun : RunWhere (step ⟨1, 1⟩) (CallUndisturbed ⟨1, 1⟩) configuredMachine
      (jointRequested ++ [.process (acknowledged true)]) _ :=
    .cons (fun _ h => by cases h) rfl (.cons (hcalm (fun _ => rfl) rfl (by decide)) rfl
      (.cons (hcalm (fun _ => rfl) rfl (by decide)) rfl .nil))
  refine ⟨_, _, hrun, rfl, rfl, (pins_truthful ⟨1, 1⟩ configuredMachine).2 _ _ _ (hrun.snoc ?_ rfl)⟩
  rintro _ ⟨⟩
  exact ⟨fun _ => rfl, fun _ => .inr ⟨[], .joint 0, [.spindle 0], rfl, rfl, nofun⟩, nofun⟩

/-- The spindle is acknowledged without a request: its fault drops the joint after the pins of the joint were
written, and they still say that it is available. -/
theorem pins_stale : ∃ s : Availability ℤ,
    Run (step ⟨1, 1⟩) configuredMachine [.setJoint (acknowledged false) 0 true,
      .process (acknowledged false), .process (acknowledged true),
      .process { acknowledged true with ack := fun _ => true }] s ∧
    (s.avail (.joint 0)).state = .disabling ∧ (s.pins (.joint 0)).available = true ∧
      (s.pins (.joint 0)).state = .available :=
  ⟨_, .of_exec rfl, rfl, rfl, rfl⟩

end Availability

end LinuxcncCtrl
