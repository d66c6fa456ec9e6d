import LinuxcncCtrl.Spec.AvailabilityPins

/-! Releases. Cancels and faults re-enter the loop over the resources from inside one iteration, so
everything they do is said once: every resource is left as it was or has been dropped, and a dropped
one has its request low. -/

namespace LinuxcncCtrl

variable {D : Type}

namespace Availability

variable {s s' s'' : Availability D} {size : MachineSize} {r : Resource} {code : AvailabilityFault}

@[simp]
theorem avail_setAvail (s : Availability D) (r : Resource) (a : AvailabilityStatus D) :
    (s.setAvail r a).avail r = a := by
  simp [setAvail]

/-- The resource has just been released, with `fault` latched. -/
structure Down (s : Availability D) (r : Resource) (fault : AvailabilityFault) : Prop where
  controlled : (s.avail r).controlled = true
  state : (s.avail r).state = .disabling
  phase : (s.avail r).phase ≠ .waitSettled
  initial : (s.avail r).phase ≠ .initialAck
  target : (s.avail r).targetAvailable = false
  request : (s.pins r).request = false
  fault : (s.avail r).fault = fault

theorem Down.congr (h : s.Down r code) (havail : s'.avail r = s.avail r) (hpins : s'.pins r = s.pins r) :
    s'.Down r code := by
  obtain ⟨hcontrolled, hstate, hphase, hinitial, htarget, hrequest, hfault⟩ := h
  constructor <;> (first | rw [havail] | rw [hpins]) <;> assumption

/-- `r` is as it was, or has been dropped with its fault kept and no pin changed but the request. -/
def Eased (s s' : Availability D) (r : Resource) : Prop :=
  s'.avail r = s.avail r ∧ s'.pins r = s.pins r ∨
    (s.avail r).controlled = true ∧ s'.Down r (s.avail r).fault ∧
      s'.pins r = { s.pins r with request := false }

theorem Eased.refl (s : Availability D) (r : Resource) : Eased s s r := .inl ⟨rfl, rfl⟩

theorem Eased.down (h : Eased s s' r) (hdown : s.Down r code) : s'.Down r code := by
  rcases h with ⟨havail, hpins⟩ | ⟨-, h, -⟩
  · exact hdown.congr havail hpins
  · exact hdown.fault ▸ h

theorem Eased.trans (h : Eased s s' r) (h' : Eased s' s'' r) : Eased s s'' r := by
  rcases h with ⟨havail, hpins⟩ | ⟨hcontrolled, hdown, hpins⟩
  · rw [Eased, havail, hpins] at h'
    exact h'
  · refine .inr ⟨hcontrolled, h'.down hdown, ?_⟩
    rcases h' with ⟨-, hpins'⟩ | ⟨-, -, hpins'⟩ <;> rw [hpins', hpins]

theorem Eased.controlled (h : Eased s s' r) : (s'.avail r).controlled = (s.avail r).controlled := by
  rcases h with ⟨havail, -⟩ | ⟨hcontrolled, hdown, -⟩
  · rw [havail]
  · rw [hcontrolled, hdown.controlled]

theorem Eased.fault (h : Eased s s' r) : (s'.avail r).fault = (s.avail r).fault := by
  rcases h with ⟨havail, -⟩ | ⟨-, hdown, -⟩
  · rw [havail]
  · exact hdown.fault

theorem Eased.phase (h : Eased s s' r) (hphase : (s'.avail r).phase = .initialAck) :
    s'.avail r = s.avail r := by
  rcases h with ⟨havail, -⟩ | ⟨-, hdown, -⟩
  · exact havail
  · exact absurd hphase hdown.initial

theorem eased_foldl {f : Availability D → Resource → Availability D} {l : List Resource}
    (h : ∀ s, ∀ r' ∈ l, Eased s (f s r') r) (s : Availability D) : Eased s (l.foldl f s) r := by
  induction l generalizing s with
  | nil => exact .refl s r
  | cons r' l ih =>
    exact (h s r' List.mem_cons_self).trans (ih (fun s r' hr' => h s r' (List.mem_cons_of_mem _ hr')) _)

/-- `r` is dropped with `fault` latched, and nothing else changes. -/
structure Drops (r : Resource) (fault : AvailabilityFault) (s s' : Availability D) : Prop where
  others : ∀ r', r' ≠ r → s'.avail r' = s.avail r' ∧ s'.pins r' = s.pins r'
  self : s'.Down r fault
  pins : s'.pins r = { s.pins r with request := false }

variable [CDouble D] {inputs : AvailabilityInputs D}

theorem release_free (h : (s.avail r).controlled = false) (fault : AvailabilityFault) (etime : D) :
    s.release fault etime r = s := by
  cases r <;> simp [release, availabilityReleaseJoint, availabilityReleaseSpindle, h]

theorem release_drops (h : (s.avail r).controlled = true) (fault : AvailabilityFault) (etime : D) :
    Drops r fault s (s.release fault etime r) := by
  cases r <;> simp only [release, availabilityReleaseJoint, availabilityReleaseSpindle, h, Bool.not_true,
    Bool.false_eq_true, if_false]
  all_goals
    refine ⟨fun r' hr' => ?_, ?_, ?_⟩
    · simp [setJoint, setSpindle, lowerRequest, setAvail, hr']
    · constructor <;> simp [setJoint, setSpindle, lowerRequest, setAvail, h,
        AvailabilityStatus.availabilityClearPending]
    · simp [setJoint, setSpindle, lowerRequest, setAvail]

def cancelResource (all : Bool) (etime : D) (s : Availability D) : Resource → Availability D
  | .joint n => cancelJoint all etime s n
  | .spindle n => cancelSpindle all etime s n

theorem cancelResource_eased (all : Bool) (etime : D) (s : Availability D) (r' r : Resource) :
    Eased s (cancelResource all etime s r') r := by
  have hrelease : Eased s (s.release (s.avail r').fault etime r') r := by
    cases h : (s.avail r').controlled with
    | true =>
      have hdrops := release_drops h (s.avail r').fault etime
      by_cases hr : r = r'
      · subst hr
        exact .inr ⟨h, hdrops.self, hdrops.pins⟩
      · exact .inl (hdrops.others r hr)
    | false =>
      rw [release_free h]
      exact .refl s r
  cases r'
  all_goals
    simp only [cancelResource, cancelJoint, cancelSpindle]
    split_ifs
    · exact hrelease
    · exact .refl s r

theorem availabilityCancel_eq (size : MachineSize) (s : Availability D) (all : Bool) (etime : D) :
    s.availabilityCancel size all etime =
      size.order.foldl (cancelResource (all || s.availabilityMachineOn) etime)
        { s with
          availabilityMachineOn := false
          availabilityResource := 0
          enabling := s.enabling && !(all || s.availabilityMachineOn)
          coordinating := s.coordinating && !(all || s.availabilityMachineOn)
          teleoperating := s.teleoperating && !(all || s.availabilityMachineOn) } := by
  rw [MachineSize.order, List.foldl_append, List.foldl_map, List.foldl_map]
  rfl

theorem availabilityCancel_eased (size : MachineSize) (s : Availability D) (all : Bool) (etime : D)
    (r : Resource) : Eased s (s.availabilityCancel size all etime) r := by
  rw [availabilityCancel_eq]
  exact Eased.trans (.inl ⟨rfl, rfl⟩) (eased_foldl (fun s r' _ => cancelResource_eased _ etime s r' r) _)

theorem availabilityMotionFault_eased (size : MachineSize) (s : Availability D)
    (inputs : AvailabilityInputs D) (r : Resource) : Eased s (s.availabilityMotionFault size inputs) r := by
  have hflags : Eased s { s with availabilityMotionError := true, motionError := true, enabling := false } r :=
    .inl ⟨rfl, rfl⟩
  simp only [availabilityMotionFault, setOperatingMode]
  split_ifs
  · refine (hflags.trans (availabilityCancel_eased size _ true inputs.stamp r)).trans ?_
    exact .inl ⟨rfl, rfl⟩
  · exact hflags

def setFault (size : MachineSize) (inputs : AvailabilityInputs D) (s : Availability D)
    (fault : AvailabilityFault) : Resource → Availability D
  | .joint n => s.setJointAvailabilityFault size inputs n fault
  | .spindle n => s.setSpindleAvailabilityFault size inputs n fault

theorem setFault_down (h : (s.avail r).controlled = true) (fault : AvailabilityFault) :
    (s.setFault size inputs fault r).Down r fault := by
  have hreported : ∀ text, (((s.release fault inputs.stamp r).reportError text).availabilityMotionFault size
      inputs).Down r fault := fun text => (availabilityMotionFault_eased size _ inputs r).down
        ((release_drops h fault inputs.stamp).self.congr rfl rfl)
  cases r <;> exact hreported _

end Availability

end LinuxcncCtrl
