import LinuxcncCtrl.Sanity.AvailabilityCalls

/-! The invariant of Machine On and the iterations of the loops. The scan never looks back: what is behind its
cursor stays available, because a loss latches a fault that ends it. -/

namespace LinuxcncCtrl

variable {D : Type}

namespace Availability

variable {s s' : Availability D} {r : Resource} {size : MachineSize} {inputs : AvailabilityInputs D}

/-- A resource in the fault state has a fault, and an initial acquisition is the one at the cursor. -/
structure Started (size : MachineSize) (s : Availability D) : Prop where
  latched : ∀ r, (s.avail r).controlled = true → (s.avail r).state = .fault → (s.avail r).fault ≠ .none
  started : ∀ n < size.spindles, (s.avail (.spindle n)).controlled = true →
    (s.avail (.spindle n)).phase = .initialAck → s.availabilityMachineOn = true ∧
      n = s.availabilityResource ∧ (s.avail (.spindle n)).state = .enabling ∧
      (s.avail (.spindle n)).initialAvailable = true

/-- The initial spindles behind the cursor are available. -/
def Behind (size : MachineSize) (s : Availability D) : Prop :=
  ∀ n < size.spindles, n < s.availabilityResource → (s.avail (.spindle n)).controlled = true →
    (s.avail (.spindle n)).initialAvailable = true → (s.avail (.spindle n)).state = .available

/-- The invariant of the scan; behind its start it waits at a spindle in transition. -/
structure Scanning (size : MachineSize) (s : Availability D) : Prop extends Started size s where
  behind : s.availabilityMachineOn = true → s.Behind size
  waiting : s.availabilityMachineOn = true → 0 < s.availabilityResource →
    s.availabilityResource < size.spindles ∧
      ((s.avail (.spindle s.availabilityResource)).state = .enabling ∨
        (s.avail (.spindle s.availabilityResource)).state = .disabling)

theorem Configured.scanning (h : s.Configured) (hpending : s.availabilityMachineOn = false) :
    s.Scanning size where
  latched r hr hstate := by simp [h.state r hr] at hstate
  started n _ hn hphase := by simp [h.phase _ hn] at hphase
  behind hon := by simp [hpending] at hon
  waiting hon := by simp [hpending] at hon

/-- A change at one resource, made while the scan is not under way. -/
theorem Scanning.of_local (h : s.Scanning size) (hlocal : Local inputs r s s')
    (hidle : s.availabilityMachineOn = true → s.availabilityResource = 0)
    (hphase : (s'.avail r).phase ≠ .initialAck) (hstate : (s'.avail r).state ≠ .fault) :
    s'.Scanning size := by
  refine ⟨⟨fun r' hr' hfault => ?_, fun n hn hcontrolled hinitial => ?_⟩, fun hon => ?_, fun hon hpos => ?_⟩
  · have hne : r' ≠ r := fun heq => hstate (heq ▸ hfault)
    rw [hlocal.avail r' hne] at hr' hfault ⊢
    exact h.latched r' hr' hfault
  · have hne : Resource.spindle n ≠ r := fun heq => hphase (heq ▸ hinitial)
    rw [hlocal.avail _ hne] at hcontrolled hinitial ⊢
    rw [hlocal.machineOn, hlocal.resource]
    exact h.started n hn hcontrolled hinitial
  · intro n _ hlt
    rw [hlocal.resource, hidle (hlocal.machineOn ▸ hon)] at hlt
    exact absurd hlt (Nat.not_lt_zero n)
  · rw [hlocal.resource, hidle (hlocal.machineOn ▸ hon)] at hpos
    exact absurd hpos (Nat.lt_irrefl 0)

theorem Scanning.idle (h : s.Scanning size) (hbusy : ¬s.availabilityTransitionBusy size = true)
    (hon : s.availabilityMachineOn = true) : s.availabilityResource = 0 := by
  by_contra hne
  obtain ⟨hlt, hstate⟩ := h.waiting hon (Nat.pos_of_ne_zero hne)
  apply hbusy
  simp only [availabilityTransitionBusy, Bool.or_eq_true]
  refine .inr (List.any_eq_true.mpr ⟨s.availabilityResource, List.mem_range.mpr hlt, ?_⟩)
  rcases hstate with hstate | hstate <;> simp [hstate]

variable [CDouble D]

theorem Started.cancel (h : s.Started size) (all : Bool) (etime : D) :
    (s.availabilityCancel size all etime).Scanning size := by
  have hended := (availabilityCancel_flags size s all etime).2.1
  have heased : ∀ r, Eased s (s.availabilityCancel size all etime) r :=
    availabilityCancel_eased size s all etime
  refine ⟨⟨fun r hr hstate => ?_, fun n hn hcontrolled hinitial => ?_⟩, ?_, ?_⟩
  · rcases heased r with ⟨havail, -⟩ | ⟨-, hdown, -⟩
    · rw [havail] at hr hstate ⊢
      exact h.latched r hr hstate
    · simp [hdown.state] at hstate
  · have hsame := (heased (.spindle n)).phase hinitial
    rw [hsame] at hcontrolled
    have hon := (h.started n hn hcontrolled (hsame ▸ hinitial)).1
    exact absurd hinitial (availabilityCancel_phase hn (by simp [hon]) hcontrolled)
  · simp [hended]
  · simp [hended]

theorem checkEnable_scanning (h : s.Scanning size) : (s.checkEnable size inputs).Scanning size := by
  simp only [checkEnable]
  split_ifs
  · exact h.toStarted.cancel true _
  · exact h

theorem Turned.controlled_each (h : Turned size inputs r s s') (r' : Resource) :
    (s'.avail r').controlled = (s.avail r').controlled := by
  by_cases hr : r' = r
  · rw [hr, h.controlled]
  · exact (h.others r' hr).controlled

theorem Turned.started (h : Turned size inputs r s s') (hstarted : s.Started size) : s'.Started size := by
  have hown : ∀ r', (s'.avail r').controlled = true → (s'.avail r').phase = .initialAck →
      (s.avail r').phase = .initialAck ∧
        ((s.avail r').state = .enabling → (s'.avail r').state = .enabling) ∧
        (s'.avail r').initialAvailable = (s.avail r').initialAvailable := by
    intro r' hcontrolled hinitial
    by_cases hr : r' = r
    · subst hr
      cases hfails : s.fails inputs r' with
      | true => exact absurd hinitial (h.latched hfails).2.1
      | false =>
        obtain ⟨hphase, hstate⟩ := (h.calm hfails).started (h.controlled.symm.trans hcontrolled) hinitial
        exact ⟨hphase, hstate, (h.stays (.inl hfails)).initial⟩
    · have hsame := (h.others r' hr).phase hinitial
      rw [hsame] at hinitial ⊢
      exact ⟨hinitial, id, rfl⟩
  refine ⟨fun r' hr' hstate => ?_, fun n hn hn' hinitial => ?_⟩
  · by_cases hr : r' = r
    · subst hr
      cases hfails : s.fails inputs r' with
      | true => exact (h.latched hfails).1
      | false =>
        exact (h.calm hfails).latched (hstarted.latched r' (h.controlled_each r' ▸ hr')) hstate
    · rcases h.others r' hr with ⟨havail, -⟩ | ⟨-, hdown, -⟩
      · rw [havail] at hr' hstate ⊢
        exact hstarted.latched r' hr' hstate
      · simp [hdown.state] at hstate
  · obtain ⟨hbefore, hstate, hsame⟩ := hown _ hn' hinitial
    obtain ⟨hon, hcursor, henabling, hconfigured⟩ := hstarted.started n hn (h.controlled_each _ ▸ hn') hbefore
    cases hon' : s'.availabilityMachineOn with
    | false => exact absurd hinitial ((h.cleared hon hon').2 n hn hn')
    | true =>
      exact ⟨rfl, hcursor.trans (h.cursor hon').2.symm, hstate henabling, hsame.trans hconfigured⟩

/-- What the iterations for `l` do: one of them has latched a fault, or none has failed. -/
structure Passed (size : MachineSize) (inputs : AvailabilityInputs D) (l : List Resource)
    (s s' : Availability D) : Prop where
  started : s.Started size → s'.Started size
  enabling : s'.enabling = true → s.enabling = true
  ended : s.availabilityMachineOn = true → s'.availabilityMachineOn = false → s'.enabling = false
  cursor : s'.availabilityMachineOn = true →
    s.availabilityMachineOn = true ∧ s'.availabilityResource = s.availabilityResource
  controlled : ∀ r, (s'.avail r).controlled = (s.avail r).controlled
  kept : ∀ r, r ∉ l → (s'.avail r).fault = (s.avail r).fault
  each : (∃ r ∈ l, (s'.avail r).controlled = true ∧ (s'.avail r).fault ≠ .none) ∨
    (∀ r ∈ l, (s'.avail r).initialAvailable = (s.avail r).initialAvailable ∧ Calm inputs r s s') ∧
      ∀ r, r ∉ l → s'.avail r = s.avail r

theorem foldl_passed {l : List Resource} (hnodup : l.Nodup) :
    Passed size inputs l s (l.foldl (processResource size inputs) s) := by
  induction l generalizing s with
  | nil =>
    refine ⟨id, id, fun hon hoff => ?_, fun hon => ⟨hon, rfl⟩, fun _ => rfl, fun _ _ => rfl,
      .inr ⟨nofun, fun _ _ => rfl⟩⟩
    cases hoff.symm.trans hon
  | cons r l ih =>
    obtain ⟨hr, hnodup⟩ := List.nodup_cons.mp hnodup
    have hturned : Turned size inputs r s _ := processResource_turned s r
    have hrest : Passed size inputs l (processResource size inputs s r) _ := ih hnodup
    refine ⟨fun h => hrest.started (hturned.started h), fun h => hturned.enabling (hrest.enabling h),
      fun hon hoff => ?_, fun hon => ?_, fun r' => (hrest.controlled r').trans (hturned.controlled_each r'),
      fun r' hr' => ?_, ?_⟩
    · cases hmid : (processResource size inputs s r).availabilityMachineOn with
      | true => exact hrest.ended hmid hoff
      | false =>
        rw [Bool.eq_false_iff]
        intro henabling
        exact absurd ((hturned.cleared hon hmid).1.symm.trans (hrest.enabling henabling)) (by decide)
    · obtain ⟨hmid, hcursor⟩ := hrest.cursor hon
      obtain ⟨hbefore, hcursor'⟩ := hturned.cursor hmid
      exact ⟨hbefore, hcursor.trans hcursor'⟩
    · rw [List.mem_cons, not_or] at hr'
      exact (hrest.kept r' hr'.2).trans (hturned.others r' hr'.1).fault
    · cases hfails : s.fails inputs r with
      | true =>
        have hown : (s.avail r).controlled = true := by
          exact (Bool.and_eq_true_iff.mp hfails).1
        refine .inl ⟨r, List.mem_cons_self, ?_, ?_⟩
        · exact ((hrest.controlled r).trans hturned.controlled).trans hown
        · exact (hrest.kept r hr).trans_ne (hturned.latched hfails).1
      | false =>
        have hlocal := hturned.stays (.inl hfails)
        rcases hrest.each with ⟨r', hmem, hfault⟩ | ⟨heach, hothers⟩
        · exact .inl ⟨r', List.mem_cons_of_mem r hmem, hfault⟩
        · refine .inr ⟨fun r' hr' => ?_, fun r' hr' => ?_⟩
          · rcases List.mem_cons.mp hr' with rfl | hmem
            · rw [List.foldl_cons, hothers r' hr]
              exact ⟨hlocal.initial, (hturned.calm hfails).congr (hothers r' hr)⟩
            · have hne : r' ≠ r := fun heq => hr (heq ▸ hmem)
              obtain ⟨hinitial, hcalm'⟩ := heach r' hmem
              rw [hlocal.avail r' hne] at hinitial
              exact ⟨hinitial, hcalm'.congr_left (hlocal.avail r' hne)⟩
          · rw [List.mem_cons, not_or] at hr'
            exact (hothers r' hr'.2).trans (hlocal.avail r' hr'.1)

omit [CDouble D] in
theorem not_faulted (h : s.faulted size = false) (hr : r ∈ size.order)
    (hcontrolled : (s.avail r).controlled = true) : (s.avail r).fault = .none := by
  simp only [faulted, Bool.or_eq_false_iff, List.any_eq_false, List.mem_range, Bool.and_eq_true,
    decide_eq_true_eq, not_and, not_not] at h
  rcases List.mem_append.mp hr with hmem | hmem
  · obtain ⟨n, hn, rfl⟩ := List.mem_map.mp hmem
    exact h.1 n (List.mem_range.mp hn) hcontrolled
  · obtain ⟨n, hn, rfl⟩ := List.mem_map.mp hmem
    exact h.2 n (List.mem_range.mp hn) hcontrolled

end Availability

end LinuxcncCtrl
