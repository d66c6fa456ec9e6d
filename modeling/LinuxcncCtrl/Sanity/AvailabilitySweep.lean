import LinuxcncCtrl.Sanity.AvailabilityCalls

/-! The loops of a call as one pass. Where no iteration reaches the others, each resource is what it would be
alone; the first failure with motion enabled ends that. -/

namespace LinuxcncCtrl

variable {D : Type}

namespace Availability

variable {s s' s₁ : Availability D} {r r' : Resource} {size : MachineSize} {inputs : AvailabilityInputs D}

variable [CDouble D]

/-- What the iterations for `done` do when none of them reaches the others: each is what it would be alone. -/
structure Swept (inputs : AvailabilityInputs D) (done : List Resource) (s s' : Availability D) : Prop where
  truthful : ∀ r ∈ done, s'.Truthful r
  others : ∀ r, r ∉ done → s'.avail r = s.avail r ∧ s'.pins r = s.pins r
  each : ∀ r ∈ done, (s'.avail r).controlled = (s.avail r).controlled ∧
    (s'.avail r).initialAvailable = (s.avail r).initialAvailable ∧
    (s.fails inputs r = false → Calm inputs r s s') ∧
    (s.fails inputs r = true → (s.avail r).state ≠ .disabling → (s'.avail r).state = .disabling)
  enableFlag : s'.enableFlag = s.enableFlag
  machineOn : s'.availabilityMachineOn = s.availabilityMachineOn
  resource : s'.availabilityResource = s.availabilityResource
  calibration : ∀ n, (s'.joints n).calibration = (s.joints n).calibration

variable {l : List Resource}

/-- Without a failure, or with motion disabled, no iteration reaches the others. -/
theorem foldl_swept (hteleop : inputs.Calibrated) (hnodup : l.Nodup)
    (h : (∀ r ∈ l, s.fails inputs r = false) ∨ s.enableFlag = false) :
    Swept inputs l s (l.foldl (processResource size inputs) s) := by
  induction l generalizing s with
  | nil => exact ⟨nofun, fun _ _ => ⟨rfl, rfl⟩, nofun, rfl, rfl, rfl, fun _ => rfl⟩
  | cons r l ih =>
    obtain ⟨hr, hnodup⟩ := List.nodup_cons.mp hnodup
    have hturned : Turned size inputs r s _ := processResource_turned s r
    have hlocal := hturned.stays (h.imp_left fun h => h r List.mem_cons_self)
    have hsame : ∀ r', r' ≠ r → (processResource size inputs s r).fails inputs r' = s.fails inputs r' :=
      fun r' hne => fails_congr (hlocal.avail r' hne) (hlocal.pins r' hne) (hlocal.calibration hteleop)
    have hne : ∀ r' ∈ l, r' ≠ r := fun r' hr' heq => hr (heq ▸ hr')
    have hrest := ih (s := processResource size inputs s r) hnodup <| h.imp
      (fun h r' hr' => (hsame r' (hne r' hr')).trans (h r' (List.mem_cons_of_mem r hr'))) hlocal.enableFlag.trans
    obtain ⟨havail, hpins⟩ := hrest.others r hr
    refine ⟨fun r' hr' => ?_, fun r' hr' => ?_, fun r' hr' => ?_, hrest.enableFlag.trans hlocal.enableFlag,
      hrest.machineOn.trans hlocal.machineOn, hrest.resource.trans hlocal.resource,
      fun n => (hrest.calibration n).trans (hlocal.calibration hteleop n)⟩
    · rcases List.mem_cons.mp hr' with rfl | hmem
      · exact hturned.truthful.congr havail hpins
      · exact hrest.truthful r' hmem
    · rw [List.mem_cons, not_or] at hr'
      obtain ⟨havail', hpins'⟩ := hrest.others r' hr'.2
      exact ⟨havail'.trans (hlocal.avail r' hr'.1), hpins'.trans (hlocal.pins r' hr'.1)⟩
    · rcases List.mem_cons.mp hr' with rfl | hmem
      · rw [List.foldl_cons, havail]
        exact ⟨hlocal.controlled, hlocal.initial, fun hcalm => (hturned.calm hcalm).congr havail,
          fun hfails => (hturned.latched hfails).2.2⟩
      · obtain ⟨hcontrolled, hinitial, hcalm, hfell⟩ := hrest.each r' hmem
        rw [hlocal.avail r' (hne r' hmem)] at hcontrolled hinitial hfell
        rw [hsame r' (hne r' hmem)] at hcalm hfell
        exact ⟨hcontrolled, hinitial, fun h => (hcalm h).congr_left (hlocal.avail r' (hne r' hmem)), hfell⟩

theorem foldl_entitled (l : List Resource) (s : Availability D) (h : r ∈ l ∨ s.Entitled r) :
    (l.foldl (processResource size inputs) s).Entitled r := by
  induction l generalizing s with
  | nil => exact h.resolve_left nofun
  | cons r' l ih =>
    have hturned : Turned size inputs r' s _ := processResource_turned s r'
    apply ih
    by_cases hr : r = r'
    · subst hr
      exact .inr hturned.entitled
    · rcases h with hmem | hentitled
      · exact .inl (List.mem_of_ne_of_mem hr hmem)
      · exact .inr (hentitled.eased (hturned.others r hr))

theorem foldl_first_failure (hteleop : inputs.Calibrated) {before after : List Resource}
    (hnodup : (before ++ r :: after).Nodup) (hon : s.enableFlag = true) (hfails : s.fails inputs r = true)
    (hbefore : ∀ r' ∈ before, s.fails inputs r' = false ∧
      ((s.avail r').controlled = true → s.Lingers inputs r')) :
    (∀ r' ∈ before ++ r :: after,
        ((before ++ r :: after).foldl (processResource size inputs) s).Truthful r') ∧
      ((before ++ r :: after).foldl (processResource size inputs) s).availabilityMachineOn = false := by
  obtain ⟨hnodupBefore, hnodupAfter, hdisjoint⟩ := List.nodup_append.mp hnodup
  obtain ⟨hr, hnodupAfter⟩ := List.nodup_cons.mp hnodupAfter
  have hswept : Swept inputs before s (before.foldl (processResource size inputs) s) :=
    foldl_swept hteleop hnodupBefore (.inl fun r' hr' => (hbefore r' hr').1)
  set s₁ := before.foldl (processResource size inputs) s with hs₁
  have hnot : r ∉ before := fun hmem => hdisjoint r hmem r List.mem_cons_self rfl
  have hturned : Turned size inputs r s₁ _ := processResource_turned s₁ r
  have hfailed : s₁.fails inputs r = true := by
    rw [fails_congr (hswept.others r hnot).1 (hswept.others r hnot).2 hswept.calibration, hfails]
  obtain ⟨hoff, hended⟩ := hturned.failed hfailed (hswept.enableFlag.trans hon)
  have hafter : Swept inputs after _ (after.foldl (processResource size inputs) (processResource size inputs s₁ r)) :=
    foldl_swept hteleop hnodupAfter (.inr hoff)
  rw [List.foldl_append, List.foldl_cons, ← hs₁]
  refine ⟨fun r' hr' => ?_, hafter.machineOn.trans hended⟩
  rcases List.mem_append.mp hr' with hmem | hmem
  · have hne : r' ≠ r := fun heq => hnot (heq ▸ hmem)
    obtain ⟨havail, hpins⟩ := hafter.others r' fun h => hdisjoint r' hmem r' (List.mem_cons_of_mem r h) rfl
    obtain ⟨hcontrolled, -, hcalm, -⟩ := hswept.each r' hmem
    refine Truthful.congr ?_ havail hpins
    refine (hswept.truthful r' hmem).eased (hturned.others r' hne) fun h => ?_
    exact (hcalm (hbefore r' hmem).1).lingers (hcontrolled ▸ h) ((hbefore r' hmem).2 (hcontrolled ▸ h))
  · rcases List.mem_cons.mp hmem with rfl | hmem
    · exact hturned.truthful.congr (hafter.others r' hr).1 (hafter.others r' hr).2
    · exact hafter.truthful r' hmem

theorem machineOn_entitled (h : s.Entitled r) : (s.machineOn size inputs).Entitled r := by
  rcases machineOn_cases s r with heased | ⟨hbegun, -, hstate⟩
  · exact h.eased heased
  · obtain ⟨runtime, etime, -, havail⟩ := hbegun.record
    intro _ _
    rw [havail]
    simp [AvailabilityStatus.availabilityBegin, hstate]

omit [CDouble D] in
theorem faulted_false (h : ∀ r ∈ size.order, (s.avail r).controlled = true → (s.avail r).fault = .none) :
    s.faulted size = false := by
  simp only [faulted, Bool.or_eq_false_iff, List.any_eq_false, List.mem_range, Bool.and_eq_true,
    decide_eq_true_eq, not_and, not_not]
  exact ⟨fun n hn => h _ (joint_mem_order hn), fun n hn => h _ (spindle_mem_order hn)⟩

/-- A pending Machine On that finds no fault, and no spindle at rest where its scan stops, only moves on. -/
theorem machineOn_idle (henable : inputs.enable = true) (hfaulted : s.faulted size = false)
    (h : ∀ n, s.availabilityResource ≤ n → n < size.spindles →
      (∀ m, s.availabilityResource ≤ m → m < n → (s.avail (.spindle m)).controlled = true →
        (s.avail (.spindle m)).initialAvailable = true → (s.avail (.spindle m)).state = .available) →
      (s.avail (.spindle n)).controlled = true → (s.avail (.spindle n)).initialAvailable = true →
        (s.avail (.spindle n)).state ≠ .disabled) :
    (s.machineOn size inputs).avail = s.avail ∧ (s.machineOn size inputs).pins = s.pins := by
  obtain ⟨k, hscanned, hpassed⟩ : ∃ k, Scanned inputs s _ k _ ∧ _ :=
    scanSpindles_scanned s (size.spindles - s.availabilityResource)
  simp only [machineOn, hfaulted, henable, Bool.false_eq_true, if_false, if_true]
  generalize scanSpindles inputs s (size.spindles - s.availabilityResource) = t at hscanned ⊢
  have ht : t.avail = s.avail ∧ t.pins = s.pins := by
    cases hscanned with
    | through => exact ⟨rfl, rfl⟩
    | stopped => exact ⟨rfl, rfl⟩
    | begun hk hcontrolled hstate hinitial =>
      exact absurd hstate (h _ (Nat.le_add_right _ k) (by omega) (fun m hle hlt => hpassed m hle hlt)
        hcontrolled hinitial)
  split_ifs
  · exact ⟨rfl, rfl⟩
  · exact ht
  · exact ht

end Availability

end LinuxcncCtrl
