import LinuxcncCtrl.Sanity.AvailabilityCycle

/-! One iteration of the loops of `process_availability`, seen from the other resources, and the call as one
pass over all resources. -/

namespace LinuxcncCtrl

variable {D : Type}

namespace Availability

variable {s s' s₁ : Availability D} {r r' : Resource} {size : MachineSize} {inputs : AvailabilityInputs D}

theorem Truthful.congr (h : s.Truthful r) (havail : s'.avail r = s.avail r) (hpins : s'.pins r = s.pins r) :
    s'.Truthful r := by
  constructor <;> rw [havail, hpins]
  · exact h.available
  · exact h.state
  · exact h.fault
  · exact h.faultCode

theorem Truthful.eased (h : s.Truthful r) (heased : Eased s s' r)
    (hstate : (s.avail r).controlled = true → (s.avail r).state = .disabling) : s'.Truthful r := by
  rcases heased with ⟨havail, hpins⟩ | ⟨hcontrolled, hdown, hpins⟩
  · exact h.congr havail hpins
  · have hbefore := hstate hcontrolled
    constructor <;> simp only [hpins, hdown.state, hdown.fault]
    · rw [h.available, hbefore]
    · rw [h.state, hbefore]
    · exact h.fault
    · exact h.faultCode

theorem Entitled.eased (h : s.Entitled r) (heased : Eased s s' r) : s'.Entitled r := by
  rcases heased with ⟨havail, hpins⟩ | ⟨-, hdown, -⟩
  · unfold Entitled
    rw [havail, hpins]
    exact h
  · intro _ hrequest
    cases hdown.request.symm.trans hrequest

theorem writePins_truthful (s : Availability D) (r : Resource) (request : Bool) :
    (s.writePins r request).Truthful r := by
  constructor <;> simp [writePins]

theorem jointRequest_entitled (s : Availability D) (n : ℕ) :
    (s.writePins (.joint n) (jointRequest (s.avail (.joint n)))).Entitled (.joint n) := by
  intro _ hrequest
  simp only [writePins, Function.update_self, jointRequest, Bool.or_eq_true, Bool.and_eq_true,
    decide_eq_true_eq] at hrequest
  rcases hrequest with ⟨⟨-, htarget⟩, hstate⟩ | ⟨-, hphase⟩
  · exact .inl ⟨or_assoc.mp hstate, htarget⟩
  · exact .inr hphase

theorem spindleRequest_entitled (s : Availability D) (n : ℕ) :
    (s.writePins (.spindle n) (spindleRequest (s.avail (.spindle n)))).Entitled (.spindle n) := by
  intro _ hrequest
  simp only [writePins, Function.update_self, spindleRequest, Bool.and_eq_true, Bool.or_eq_true,
    decide_eq_true_eq] at hrequest
  obtain ⟨⟨-, htarget⟩, hstate⟩ := hrequest
  exact .inl ⟨hstate.imp id .inr, htarget⟩

theorem joint_mem_order {n : ℕ} (hn : n < size.joints) : Resource.joint n ∈ size.order :=
  List.mem_append_left _ (List.mem_map_of_mem (List.mem_range.mpr hn))

theorem spindle_mem_order {n : ℕ} (hn : n < size.spindles) : Resource.spindle n ∈ size.order :=
  List.mem_append_right _ (List.mem_map_of_mem (List.mem_range.mpr hn))

variable [CDouble D]

theorem startHoming_isNone (s : Availability D) (n : ℕ) : (s.availabilityStartHoming inputs n).isNone =
    (!CDouble.isfinite (inputs.motorPosFb n) || !CDouble.isfinite
      (inputs.motorPosFb n - (s.joints n).backlashFilt - (s.joints n).motorOffset)) := by
  unfold availabilityStartHoming
  dsimp only
  split_ifs with hfinite
  · rw [hfinite]
    rfl
  · simpa using hfinite

/-- Whether `r` fails depends on its record, its pins and the calibration of the joint. -/
theorem fails_congr (havail : s'.avail r = s.avail r) (hpins : s'.pins r = s.pins r)
    (hjoints : ∀ n, (s'.joints n).calibration = (s.joints n).calibration) :
    s'.fails inputs r = s.fails inputs r := by
  cases r with
  | joint n =>
    obtain ⟨hbacklash, hrest⟩ := Prod.mk.inj (hjoints n)
    obtain ⟨hoffset, hferror⟩ := Prod.mk.inj hrest
    simp only [fails, jointFails, startHoming_isNone, validateJointPosition, havail, hpins, hbacklash,
      hoffset, hferror]
  | spindle n => simp only [fails, spindleFails, havail, hpins]

/-- What the iteration for `r` does to the state. -/
structure Turned (size : MachineSize) (inputs : AvailabilityInputs D) (r : Resource)
    (s s' : Availability D) : Prop where
  truthful : s'.Truthful r
  entitled : s'.Entitled r
  others : ∀ r', r' ≠ r → Eased s s' r'
  stays : s.fails inputs r = false ∨ s.enableFlag = false → Local inputs r s s'
  calm : s.fails inputs r = false → Calm inputs r s s'
  failed : s.fails inputs r = true → s.enableFlag = true →
    s'.enableFlag = false ∧ s'.availabilityMachineOn = false
  controlled : (s'.avail r).controlled = (s.avail r).controlled
  latched : s.fails inputs r = true → (s'.avail r).fault ≠ .none ∧ (s'.avail r).phase ≠ .initialAck ∧
    ((s.avail r).state ≠ .disabling → (s'.avail r).state = .disabling)
  cursor : s'.availabilityMachineOn = true →
    s.availabilityMachineOn = true ∧ s'.availabilityResource = s.availabilityResource
  enabling : s'.enabling = true → s.enabling = true
  cleared : s.availabilityMachineOn = true → s'.availabilityMachineOn = false → s'.enabling = false ∧
    ∀ n < size.spindles, (s'.avail (.spindle n)).controlled = true →
      (s'.avail (.spindle n)).phase ≠ .initialAck

theorem availabilityMotionFault_off (h : s.enableFlag = false) :
    Local inputs r s (s.availabilityMotionFault size inputs) := by
  have hsame : s.availabilityMotionFault size inputs =
      { s with availabilityMotionError := true, motionError := true, enabling := false } := by
    simp [availabilityMotionFault, setOperatingMode, h]
  rw [hsame]
  exact ⟨fun _ _ => rfl, fun _ _ => rfl, rfl, rfl, rfl, rfl, rfl, by simp, fun _ _ => rfl⟩

theorem availabilityMotionFault_on (h : s.enableFlag = true) :
    (s.availabilityMotionFault size inputs).enableFlag = false ∧
      (s.availabilityMotionFault size inputs).availabilityMachineOn = false := by
  simp only [availabilityMotionFault, setOperatingMode, h, Bool.not_false, Bool.and_self, if_true]
  exact ⟨trivial, (availabilityCancel_flags size _ true _).2.1⟩

theorem availabilityMotionFault_enabling (size : MachineSize) (s : Availability D)
    (inputs : AvailabilityInputs D) : (s.availabilityMotionFault size inputs).enabling = false := by
  simp only [availabilityMotionFault, setOperatingMode]
  split_ifs
  · exact (availabilityCancel_flags size _ true _).2.2
  · rfl

variable {etime : D} {n : ℕ}

theorem cancelResource_true (s : Availability D) (r : Resource) :
    cancelResource true etime s r = s.release (s.avail r).fault etime r := by
  cases r <;> simp [cancelResource, cancelJoint, cancelSpindle, release]

theorem foldl_cancelResource_phase {l : List Resource} (hr : r ∈ l) (h : (s.avail r).controlled = true) :
    ((l.foldl (cancelResource true etime) s).avail r).phase ≠ .initialAck := by
  induction l generalizing s with
  | nil => cases hr
  | cons r' l ih =>
    by_cases hr' : r = r'
    · subst hr'
      have hdown := (release_drops h (s.avail r).fault etime).self
      rw [List.foldl_cons, cancelResource_true]
      exact ((eased_foldl (fun s r' _ => cancelResource_eased true etime s r' r) _).down hdown).initial
    · exact ih (List.mem_of_ne_of_mem hr' hr) ((cancelResource_eased true etime s r' r).controlled.trans h)

theorem availabilityCancel_phase {all : Bool} (hn : n < size.spindles)
    (hall : (all || s.availabilityMachineOn) = true) (h : (s.avail (.spindle n)).controlled = true) :
    ((s.availabilityCancel size all etime).avail (.spindle n)).phase ≠ .initialAck := by
  rw [availabilityCancel_eq, hall]
  exact foldl_cancelResource_phase (spindle_mem_order hn) h

theorem availabilityMotionFault_cleared (hpending : s.availabilityMachineOn = true)
    (hended : (s.availabilityMotionFault size inputs).availabilityMachineOn = false) (n : ℕ)
    (hn : n < size.spindles)
    (h : ((s.availabilityMotionFault size inputs).avail (.spindle n)).controlled = true) :
    ((s.availabilityMotionFault size inputs).avail (.spindle n)).phase ≠ .initialAck := by
  have hcontrolled : (s.avail (.spindle n)).controlled = true :=
    (availabilityMotionFault_eased size s inputs (.spindle n)).controlled.symm.trans h
  simp only [availabilityMotionFault, setOperatingMode] at hended ⊢
  split_ifs at hended ⊢
  · exact availabilityCancel_phase hn rfl hcontrolled
  · rw [hpending] at hended
    cases hended

omit [CDouble D] in
theorem writePins_local (s : Availability D) (r : Resource) (request : Bool) :
    Local inputs r s (s.writePins r request) :=
  ⟨fun _ _ => rfl, fun _ hr' => Function.update_of_ne hr' _ _, rfl, rfl, rfl, rfl, rfl, id, fun _ _ => rfl⟩

theorem Switched.turned {request : Bool} (h : Switched size inputs r s (s.fails inputs r) s₁)
    (hentitled : (s₁.writePins r request).Entitled r) :
    Turned size inputs r s (s₁.writePins r request) := by
  have hwrite : Local inputs r s₁ (s₁.writePins r request) := writePins_local s₁ r request
  refine ⟨writePins_truthful s₁ r request, hentitled, ?_, ?_, ?_, ?_, ?_, ?_, ?_, ?_, ?_⟩
  all_goals generalize s.fails inputs r = failing at h
  · intro r' hr'
    have hwritten : Eased s₁ (s₁.writePins r request) r' := .inl ⟨hwrite.avail r' hr', hwrite.pins r' hr'⟩
    cases h with
    | calm hlocal _ => exact Eased.trans (.inl ⟨hlocal.avail r' hr', hlocal.pins r' hr'⟩) hwritten
    | @failed s₂ hlocal _ _ _ =>
      exact .trans (.inl ⟨hlocal.avail r' hr', hlocal.pins r' hr'⟩)
        ((availabilityMotionFault_eased size s₂ inputs r').trans hwritten)
  · intro hquiet
    cases h with
    | calm hlocal _ => exact hlocal.trans hwrite
    | @failed s₂ hlocal _ _ _ =>
      have hoff : s₂.enableFlag = false := hlocal.enableFlag.trans (hquiet.resolve_left (by decide))
      exact (hlocal.trans (availabilityMotionFault_off hoff)).trans hwrite
  · rintro rfl
    cases h with
    | calm _ hcalm => exact { hcalm with }
  · rintro rfl hon
    cases h with
    | failed hlocal _ _ _ => exact availabilityMotionFault_on (hlocal.enableFlag.trans hon)
  · cases h with
    | calm hlocal _ => exact hlocal.controlled
    | @failed s₂ hlocal _ _ _ =>
      exact (availabilityMotionFault_eased size s₂ inputs r).controlled.trans hlocal.controlled
  · rintro rfl
    cases h with
    | @failed s₂ hlocal hfault hphase hstate =>
      have heased := availabilityMotionFault_eased size s₂ inputs r
      refine ⟨fun hnone => hfault (heased.fault ▸ hnone), fun hinitial => hphase ?_, fun hbefore => ?_⟩
      · rw [← heased.phase hinitial]
        exact hinitial
      · rcases heased with ⟨havail, -⟩ | ⟨-, hdown, -⟩
        · exact (congrArg AvailabilityStatus.state havail).trans (hstate hbefore)
        · exact hdown.state
  · intro hpending
    cases h with
    | calm hlocal _ => exact ⟨hlocal.machineOn ▸ hpending, hlocal.resource⟩
    | @failed s₂ hlocal _ _ _ =>
      cases hon : s₂.enableFlag with
      | true => cases (availabilityMotionFault_on hon).2.symm.trans hpending
      | false =>
        have hboth := (hlocal.trans (availabilityMotionFault_off hon)).trans hwrite
        exact ⟨hboth.machineOn ▸ hpending, hboth.resource⟩
  · intro henabling
    cases h with
    | calm hlocal _ => exact hlocal.enabling henabling
    | @failed s₂ hlocal _ _ _ =>
      exact absurd ((availabilityMotionFault_enabling size s₂ inputs).symm.trans henabling) (by decide)
  · intro hpending hended
    cases h with
    | calm hlocal _ => exact absurd (hended.symm.trans (hlocal.machineOn.trans hpending)) (by decide)
    | @failed s₂ hlocal _ _ _ =>
      refine ⟨availabilityMotionFault_enabling size s₂ inputs, ?_⟩
      exact availabilityMotionFault_cleared (hlocal.machineOn.trans hpending) hended

theorem Turned.ended (h : Turned size inputs r s s') (hover : s.availabilityMachineOn = false) :
    s'.availabilityMachineOn = false := by
  rw [Bool.eq_false_iff]
  intro hon
  cases hover.symm.trans (h.cursor hon).1

theorem processResource_turned (s : Availability D) (r : Resource) :
    Turned size inputs r s (processResource size inputs s r) := by
  cases r with
  | joint n => exact (examineJoint_walked s n).1.turned (jointRequest_entitled _ n)
  | spindle n => exact (examineSpindle_walked s n).1.turned (spindleRequest_entitled _ n)

omit [CDouble D] in
theorem Calm.congr {s'' : Availability D} (h : Calm inputs r s s') (havail : s''.avail r = s'.avail r) :
    Calm inputs r s s'' := by
  constructor <;> rw [havail]
  · exact h.fault
  · exact h.lingers
  · exact h.busy
  · exact h.up
  · exact h.entered
  · exact h.latched
  · exact h.started

omit [CDouble D] in
theorem Calm.congr_left {s₀ : Availability D} (h : Calm inputs r s s') (havail : s.avail r = s₀.avail r) :
    Calm inputs r s₀ s' := by
  obtain ⟨hfault, hlingers, hbusy, hup, hentered, hlatched, hstarted⟩ := h
  unfold Lingers at hlingers
  rw [havail] at hfault hlingers hbusy hup hentered hlatched hstarted
  exact ⟨hfault, hlingers, hbusy, hup, hentered, hlatched, hstarted⟩

theorem checkEnable_pending (h : (s.checkEnable size inputs).availabilityMachineOn = true) :
    inputs.enable = true := by
  by_contra hlow
  simp only [Bool.not_eq_true] at hlow
  simp only [checkEnable, hlow, Bool.not_false, Bool.true_and] at h
  split_ifs at h with hpending
  · rw [(availabilityCancel_flags size s true _).2.1] at h
    cases h
  · simp [h] at hpending

theorem machineOn_over (h : s.availabilityMachineOn = false) : s.machineOn size inputs = s := by
  simp [machineOn, h]

theorem processAvailability_eq (s : Availability D) : s.processAvailability size inputs =
    (size.order.foldl (processResource size inputs) (s.checkEnable size inputs)).machineOn size inputs := by
  rw [MachineSize.order, List.foldl_append, List.foldl_map, List.foldl_map]
  rfl

theorem order_nodup (size : MachineSize) : size.order.Nodup := by
  refine List.Nodup.append ?_ ?_ ?_
  · exact List.nodup_range.map fun _ _ h => Resource.joint.inj h
  · exact List.nodup_range.map fun _ _ h => Resource.spindle.inj h
  · intro r hjoint hspindle
    obtain ⟨n, -, rfl⟩ := List.mem_map.mp hjoint
    obtain ⟨n', -, hn'⟩ := List.mem_map.mp hspindle
    cases hn'

/-- The scan passes `k` spindles that need nothing, and is through or stops at the next one. -/
inductive Scanned (inputs : AvailabilityInputs D) (s : Availability D) (left k : ℕ) :
    Availability D → Prop
  | through (hk : k = left) : Scanned inputs s left k
      { s with availabilityResource := s.availabilityResource + k }
  | begun (hk : k < left)
      (hcontrolled : (s.avail (.spindle (s.availabilityResource + k))).controlled = true)
      (hstate : (s.avail (.spindle (s.availabilityResource + k))).state = .disabled)
      (hinitial : (s.avail (.spindle (s.availabilityResource + k))).initialAvailable = true) :
    Scanned inputs s left k (availabilityBegin { s with availabilityResource := s.availabilityResource + k }
      (.spindle (s.availabilityResource + k)) false inputs.stamp)
  | stopped (hk : k < left)
      (hcontrolled : (s.avail (.spindle (s.availabilityResource + k))).controlled = true)
      (hstate : (s.avail (.spindle (s.availabilityResource + k))).state ≠ .disabled)
      (hwaits : (s.avail (.spindle (s.availabilityResource + k))).state ≠ .available) :
    Scanned inputs s left k { s with availabilityResource := s.availabilityResource + k }

omit [CDouble D] in
theorem scanSpindles_scanned (s : Availability D) (left : ℕ) :
    ∃ k, Scanned inputs s left k (scanSpindles inputs s left) ∧
      ∀ n, s.availabilityResource ≤ n → n < s.availabilityResource + k →
        (s.avail (.spindle n)).controlled = true → (s.avail (.spindle n)).initialAvailable = true →
          (s.avail (.spindle n)).state = .available := by
  induction left generalizing s with
  | zero => exact ⟨0, .through rfl, fun n hle hlt => absurd hlt (by omega)⟩
  | succ left ih =>
    rw [scanSpindles]
    split_ifs with hskip hrest
    · obtain ⟨k, hscanned, hpassed⟩ := ih { s with availabilityResource := s.availabilityResource + 1 }
      have hadd : s.availabilityResource + 1 + k = s.availabilityResource + (k + 1) := by omega
      refine ⟨k + 1, ?_, fun n hle hlt hcontrolled hinitial => ?_⟩
      · generalize scanSpindles inputs _ left = s' at hscanned
        cases hscanned with
        | through hk =>
          rw [hadd]
          exact .through (congrArg (· + 1) hk)
        | begun hk hcontrolled hstate hinitial =>
          rw [hadd] at hcontrolled hstate hinitial ⊢
          exact .begun (Nat.succ_lt_succ hk) hcontrolled hstate hinitial
        | stopped hk hcontrolled hstate hwaits =>
          rw [hadd] at hcontrolled hstate hwaits ⊢
          exact .stopped (Nat.succ_lt_succ hk) hcontrolled hstate hwaits
      · rcases Nat.eq_or_lt_of_le hle with rfl | hlt'
        · rw [hcontrolled, hinitial] at hskip
          simpa using hskip
        · exact hpassed n hlt' (by dsimp only; omega) hcontrolled hinitial
    · simp only [not_or, Bool.not_eq_true', Bool.not_eq_false] at hskip
      exact ⟨0, .begun (Nat.succ_pos left) hskip.1 hrest hskip.2.1, fun n hle hlt => absurd hlt (by omega)⟩
    · simp only [not_or, Bool.not_eq_true', Bool.not_eq_false] at hskip
      exact ⟨0, .stopped (Nat.succ_pos left) hskip.1 hrest hskip.2.2,
        fun n hle hlt => absurd hlt (by omega)⟩

end Availability

end LinuxcncCtrl
