import LinuxcncCtrl.Sanity.AvailabilityCalls

/-! The commands, and one step of the machine as one resource sees it. -/

namespace LinuxcncCtrl

variable {D : Type} {r : Resource}

namespace Availability

variable {s s' : Availability D} {size : MachineSize} {inputs : AvailabilityInputs D} [CDouble D]

/-- What a command to acquire or release a resource may do. -/
inductive Commanded (size : MachineSize) (s : Availability D) : Availability D → Prop
  | answered {s' : Availability D} (havail : s'.avail = s.avail) (hpins : s'.pins = s.pins)
      (hon : s'.availabilityMachineOn = s.availabilityMachineOn)
      (hcursor : s'.availabilityResource = s.availabilityResource) : Commanded size s s'
  | began (hbusy : ¬s.availabilityTransitionBusy size = true) (r : Resource) (etime : D)
      (hrest : (s.avail r).state = .disabled ∨ (s.avail r).state = .fault) :
      Commanded size s (s.availabilityBegin r true etime)
  | settling (hbusy : ¬s.availabilityTransitionBusy size = true) (n : ℕ) (etime : D) :
      Commanded size s (s.availabilityBeginJointRelease n etime)
  | released (hbusy : ¬s.availabilityTransitionBusy size = true) (r : Resource) (etime : D)
      (hcontrolled : (s.avail r).controlled = true) : Commanded size s (s.release .none etime r)

omit [CDouble D] in
theorem atRest_controlled {a : AvailabilityStatus D} (h : ¬(!atRest a) = true) : a.controlled = true := by
  simp only [Bool.not_eq_true', Bool.not_eq_false, atRest, Bool.and_eq_true] at h
  exact h.1

theorem refuse_commanded (s : Availability D) (status : CommandStatus) : Commanded size s (s.refuse status) :=
  .answered rfl rfl rfl rfl

theorem setJointAvailability_commanded (s : Availability D) (joint : ℤ) (available : Bool) :
    Commanded size s (s.setJointAvailability size inputs joint available) := by
  simp only [setJointAvailability]
  split_ifs with hrange hbusy hrest hsame hblocked hinhibit hacquire henable hup
  · exact refuse_commanded s _
  · exact refuse_commanded s _
  · exact refuse_commanded s _
  · exact .answered rfl rfl rfl rfl
  · exact refuse_commanded s _
  · exact .answered rfl rfl rfl rfl
  · exact refuse_commanded s _
  · subst hacquire
    exact .began hbusy (.joint _) _ (atRest_acquire (by simpa using hrest) (by simpa using hsame))
  · exact .settling hbusy _ _
  · exact .released hbusy (.joint _) _ (atRest_controlled hrest)

theorem setSpindleAvailability_commanded (s : Availability D) (spindle : ℤ) (available : Bool) :
    Commanded size s (s.setSpindleAvailability size inputs spindle available) := by
  simp only [setSpindleAvailability]
  split_ifs with hrange hbusy hrest hsame hblocked hacquire henable
  · exact refuse_commanded s _
  · exact refuse_commanded s _
  · exact refuse_commanded s _
  · exact .answered rfl rfl rfl rfl
  · exact refuse_commanded s _
  · exact refuse_commanded s _
  · subst hacquire
    exact .began hbusy (.spindle _) _ (atRest_acquire (by simpa using hrest) (by simpa using hsame))
  · exact .released hbusy (.spindle _) _ (atRest_controlled hrest)

theorem Commanded.passive (h : Commanded size s s') (r : Resource) : Passive s s' r := by
  cases h with
  | answered havail hpins _ _ => exact .kept (.inl (.inl ⟨congrFun havail r, congrFun hpins r⟩))
  | began _ r' etime hrest =>
    by_cases hr : r = r'
    · subst hr
      exact .kept (.inr ⟨hrest, ⟨true, etime, fun _ => rfl, avail_setAvail _ _ _⟩, rfl⟩)
    · exact .kept (.inl (.inl ⟨Function.update_of_ne hr _ _, rfl⟩))
  | settling _ n etime =>
    by_cases hr : r = .joint n
    · subst hr
      refine .settling ?_ ?_ ?_ <;> simp [availabilityBeginJointRelease]
    · exact .kept (.inl (.inl ⟨Function.update_of_ne hr _ _, rfl⟩))
  | released _ r' etime hcontrolled =>
    have hdrops := release_drops hcontrolled .none etime
    by_cases hr : r = r'
    · subst hr
      exact .settling (hdrops.self.controlled.trans hcontrolled.symm) hdrops.self.state hdrops.self.target
    · exact .kept (.inl (.inl (hdrops.others r hr)))

theorem call_iterated (hinv : s.Inv) (hmem : r ∈ size.order) (hr : (s.avail r).controlled = true) :
    Eased s (s.reached size inputs r) r ∧
      Iterated inputs r (s.reached size inputs r) (processResource size inputs (s.reached size inputs r) r) ∧
      Kept (processResource size inputs (s.reached size inputs r) r) (s.processAvailability size inputs) r := by
  obtain ⟨heased, hkept⟩ := processAvailability_parts s hmem
  have hcontrolled := heased.controlled.trans hr
  exact ⟨heased, processResource_iterated hcontrolled (reached_inv hinv r r hcontrolled), hkept⟩

theorem call_up (hinv : s.Inv) (hmem : r ∈ size.order) (hr : (s.avail r).controlled = true)
    (hup : ((s.processAvailability size inputs).avail r).state = .available) :
    inputs.ack r = true ∧ ∀ n, r = .joint n → inputs.homed n = true := by
  obtain ⟨-, hiterated, hkept⟩ := call_iterated hinv hmem hr
  rw [((Passive.kept hkept).same hiterated.inv (.inr (.inr hup))).1] at hup
  rcases hiterated.outcome with ⟨fault, -, hdown⟩ | hmoves
  · cases hdown.state.symm.trans hup
  · exact hmoves.up hup

variable {action : AvailabilityAction D}

/-- A step, seen from one resource: its own iteration, with what comes before and after it, or none. -/
theorem step_cases (hstep : s.step size action = some s') (r : Resource) :
    Passive s s' r ∨ ∃ inputs, action = .process inputs ∧ r ∈ size.order ∧
      Eased s (s.reached size inputs r) r ∧
      Kept (processResource size inputs (s.reached size inputs r) r) s' r := by
  cases action with
  | process inputs =>
    cases hstep
    by_cases hr : r ∈ size.order
    · exact .inr ⟨inputs, rfl, hr, processAvailability_parts s hr⟩
    · refine .inl (.kept ?_)
      rw [processAvailability_eq]
      exact ((checkEnable_eased s r).trans (foldl_eased hr _)).kept (machineOn_kept _ r)
  | setJoint inputs joint available =>
    cases hstep
    exact .inl (((setJointAvailability_commanded _ joint available).passive r).of_eq rfl rfl)
  | setSpindle inputs spindle available =>
    cases hstep
    exact .inl (((setSpindleAvailability_commanded _ spindle available).passive r).of_eq rfl rfl)
  | enable inputs =>
    cases hstep
    refine .inl (.kept (.inl (.inl ?_)))
    simp only [enable]
    split_ifs <;> exact ⟨rfl, rfl⟩
  | disable inputs =>
    cases hstep
    exact .inl (.kept (.inl (.trans (.inl ⟨rfl, rfl⟩) (availabilityCancel_eased size _ true _ r))))
  | cancel inputs all =>
    cases hstep
    exact .inl (.kept (.inl (availabilityCancel_eased size s all _ r)))
  | other motion =>
    cases hstep
    exact .inl (.kept (.inl (.inl ⟨rfl, rfl⟩)))

theorem inv_step (hstep : s.step size action = some s') (hinv : s.Inv) : s'.Inv := by
  intro r hr'
  rcases step_cases hstep r with hpassive | ⟨inputs, -, hr, heased, hkept⟩
  · exact hpassive.inv (hinv r (hpassive.controlled ▸ hr'))
  · have hpassive : Passive _ s' r := .kept hkept
    have hcontrolled : ((s.reached size inputs r).avail r).controlled = true :=
      (processResource_turned _ r).controlled.symm.trans (hpassive.controlled.symm.trans hr')
    exact hpassive.inv (processResource_iterated hcontrolled (reached_inv hinv r r hcontrolled)).inv

/-- What a step leaves requested, homing or available, it has left alone, or its iteration has moved it. -/
theorem step_active (hinv : s.Inv) (hr : (s.avail r).controlled = true)
    (hstep : s.step size action = some s')
    (hactive : (s'.pins r).request = true ∧ (s'.avail r).targetAvailable = true ∨
      (s'.avail r).state = .homing ∨ (s'.avail r).state = .available) :
    (s'.avail r = s.avail r ∧ s'.pins r = s.pins r) ∨
      ∃ inputs, action = .process inputs ∧ (s.reached size inputs r).avail r = s.avail r ∧
        (s.reached size inputs r).pins r = s.pins r ∧
        Moves inputs r (s.reached size inputs r) (s'.avail r) ∧ (s'.avail r).targetAvailable = true := by
  rcases step_cases hstep r with hpassive | ⟨inputs, haction, -, heased, hkept⟩
  · exact .inl (hpassive.same (hinv r hr) hactive)
  · have hcontrolled := heased.controlled.trans hr
    have hiterated : Iterated inputs r _ (processResource size inputs (s.reached size inputs r) r) :=
      processResource_iterated hcontrolled (reached_inv hinv r r hcontrolled)
    obtain ⟨havail, hpins⟩ := (Passive.kept hkept).same hiterated.inv hactive
    rw [havail, hpins] at hactive
    rcases hiterated.outcome with ⟨fault, -, hdown⟩ | hmoves
    · simp [hdown.request, hdown.state] at hactive
    · have htarget : (s'.avail r).targetAvailable = true := by
        rw [havail]
        rcases hactive with ⟨-, htarget⟩ | hstate
        · exact htarget
        · exact hmoves.ordered.active (.inr hstate)
      rw [← havail] at hmoves
      rcases heased with ⟨hsame, hsamePins⟩ | ⟨-, hdown, -⟩
      · exact .inr ⟨inputs, haction, hsame, hsamePins, hmoves, htarget⟩
      · exact absurd (hdown.target.symm.trans (hmoves.target htarget)) (by decide)

end Availability

end LinuxcncCtrl
