import LinuxcncCtrl.Sanity.MachineOn

/-! The scan at the end of a call, and the call. The scan begins a spindle at rest, waits at one in transition
and passes what is available; only a scan that is through sets `enabling`. -/

namespace LinuxcncCtrl

variable {D : Type}

namespace Availability

variable {s s' : Availability D} {r : Resource} {size : MachineSize} {inputs : AvailabilityInputs D} [CDouble D]

/-- What Machine On leaves when it has set `enabling`. -/
structure Enabled (size : MachineSize) (inputs : AvailabilityInputs D) (s : Availability D) : Prop where
  enable : inputs.enable = true
  spindles : ∀ n < size.spindles, (s.avail (.spindle n)).controlled = true →
    (s.avail (.spindle n)).initialAvailable = true → (s.avail (.spindle n)).state = .available
  faults : ∀ r ∈ size.order, (s.avail r).controlled = true → (s.avail r).fault = .none

section Scan

variable {k : ℕ} (hstarted : s.Started size) (hbehind : s.Behind size)
  (hpassed : ∀ n, s.availabilityResource ≤ n → n < s.availabilityResource + k →
    (s.avail (.spindle n)).controlled = true → (s.avail (.spindle n)).initialAvailable = true →
      (s.avail (.spindle n)).state = .available)

include hbehind hpassed in
omit [CDouble D] in
theorem behind_passed : Behind size { s with availabilityResource := s.availabilityResource + k } := by
  intro n hn hlt hcontrolled hinitial
  rcases Nat.lt_or_ge n s.availabilityResource with hbefore | hfrom
  · exact hbehind n hn hbefore hcontrolled hinitial
  · exact hpassed n hfrom hlt hcontrolled hinitial

include hstarted hpassed in
omit [CDouble D] in
/-- An acquisition in progress is not behind a cursor that has moved on. -/
theorem started_passed {n : ℕ} (hn : n < size.spindles)
    (hcontrolled : (s.avail (.spindle n)).controlled = true)
    (hinitial : (s.avail (.spindle n)).phase = .initialAck) :
    k = 0 ∧ n = s.availabilityResource ∧ (s.avail (.spindle n)).state = .enabling ∧
      (s.avail (.spindle n)).initialAvailable = true := by
  obtain ⟨-, hcursor, hstate, hconfigured⟩ := hstarted.started n hn hcontrolled hinitial
  refine ⟨?_, hcursor, hstate, hconfigured⟩
  by_contra hk
  have hup := hpassed n (Nat.le_of_eq hcursor.symm) (by omega) hcontrolled hconfigured
  simp [hstate] at hup

include hstarted hbehind hpassed in
omit [CDouble D] in
theorem begun_scanning (hon : s.availabilityMachineOn = true)
    (hlt : s.availabilityResource + k < size.spindles)
    (hstate : (s.avail (.spindle (s.availabilityResource + k))).state = .disabled)
    (hinitial : (s.avail (.spindle (s.availabilityResource + k))).initialAvailable = true) (etime : D) :
    (availabilityBegin { s with availabilityResource := s.availabilityResource + k }
      (.spindle (s.availabilityResource + k)) false etime).Scanning size := by
  set t : Availability D := { s with availabilityResource := s.availabilityResource + k } with ht
  set r : Resource := .spindle (s.availabilityResource + k) with hr
  have hothers : ∀ r', r' ≠ r → (t.availabilityBegin r false etime).avail r' = s.avail r' := fun r' hr' => by
    simp [availabilityBegin, setAvail, hr', ht]
  have hbegun : ((t.availabilityBegin r false etime).avail r).state = .enabling ∧
      ((t.availabilityBegin r false etime).avail r).initialAvailable = true := by
    simp [availabilityBegin, setAvail, AvailabilityStatus.availabilityBegin, ht, hstate, hinitial]
  refine ⟨⟨fun r' hr' hfault => ?_, fun n hn hcontrolled hphase => ?_⟩, fun _ n hn hbefore hc hi => ?_,
    fun _ _ => ⟨hlt, .inl hbegun.1⟩⟩
  · by_cases heq : r' = r
    · rw [heq, hbegun.1] at hfault
      cases hfault
    · rw [hothers r' heq] at hr' hfault ⊢
      exact hstarted.latched r' hr' hfault
  · by_cases heq : Resource.spindle n = r
    · rw [heq]
      exact ⟨hon, Resource.spindle.inj heq, hbegun⟩
    · rw [hothers _ heq] at hcontrolled hphase ⊢
      obtain ⟨hk, hcursor, hrest⟩ := started_passed hstarted hpassed hn hcontrolled hphase
      have hsame : n = s.availabilityResource + k := by omega
      exact ⟨hon, hsame, hrest⟩
  · have hne : Resource.spindle n ≠ r := fun heq => absurd (Resource.spindle.inj heq) (Nat.ne_of_lt hbefore)
    rw [hothers _ hne] at hc hi ⊢
    exact behind_passed hbehind hpassed n hn hbefore hc hi

include hstarted hbehind hpassed in
omit [CDouble D] in
theorem stopped_scanning (hon : s.availabilityMachineOn = true)
    (hlt : s.availabilityResource + k < size.spindles)
    (hstate : (s.avail (.spindle (s.availabilityResource + k))).state = .enabling ∨
      (s.avail (.spindle (s.availabilityResource + k))).state = .disabling) :
    Scanning size { s with availabilityResource := s.availabilityResource + k } := by
  refine ⟨⟨hstarted.latched, fun n hn hcontrolled hphase => ?_⟩, fun _ => behind_passed hbehind hpassed,
    fun _ _ => ⟨hlt, hstate⟩⟩
  obtain ⟨hk, hcursor, hrest⟩ := started_passed hstarted hpassed hn hcontrolled hphase
  have hsame : n = s.availabilityResource + k := by omega
  exact ⟨hon, hsame, hrest⟩

end Scan

/-- Machine On keeps the invariant; where it sets `enabling`, its spindles are available. -/
theorem machineOn_scanning (hstarted : s.Started size)
    (hready : s.availabilityMachineOn = true → s.faulted size = false →
      s.Behind size ∧ s.availabilityResource ≤ size.spindles)
    (hinv : (s.machineOn size inputs).Inv) :
    (s.machineOn size inputs).Scanning size ∧
      (s.availabilityMachineOn = true → (s.machineOn size inputs).availabilityMachineOn = false →
        (s.machineOn size inputs).enabling = true → Enabled size inputs (s.machineOn size inputs)) := by
  cases hon : s.availabilityMachineOn with
  | false =>
    rw [machineOn_over hon]
    refine ⟨⟨hstarted, fun h => ?_, fun h => ?_⟩, fun h => absurd h (by decide)⟩
    · cases hon.symm.trans h
    · cases hon.symm.trans h
  | true =>
    cases hfaulted : s.faulted size with
    | true =>
      have hcancel : s.machineOn size inputs = s.availabilityCancel size true inputs.stamp := by
        simp [machineOn, hon, hfaulted]
      rw [hcancel]
      refine ⟨hstarted.cancel true _, fun _ _ henabling => ?_⟩
      rw [(availabilityCancel_flags size s true _).2.2] at henabling
      simp at henabling
    | false =>
      obtain ⟨hbehind, hcursor⟩ := hready hon hfaulted
      obtain ⟨k, hscanned, hpassed⟩ : ∃ k, Scanned inputs s _ k _ ∧ _ :=
        scanSpindles_scanned s (size.spindles - s.availabilityResource)
      have hmachine : s.machineOn size inputs =
          let t := scanSpindles inputs s (size.spindles - s.availabilityResource)
          if t.availabilityResource = size.spindles then
            if inputs.enable then { t with availabilityMachineOn := false, enabling := true }
            else t.availabilityCancel size true inputs.stamp
          else t := by
        simp [machineOn, hon, hfaulted]
      rw [hmachine] at hinv ⊢
      generalize scanSpindles inputs s (size.spindles - s.availabilityResource) = t at hscanned hinv
      dsimp only at hinv ⊢
      cases hscanned with
      | through hk =>
        have hend : s.availabilityResource + k = size.spindles := by omega
        have hall := behind_passed hbehind hpassed
        have hnone : ∀ n < size.spindles, (s.avail (.spindle n)).controlled = true →
            (s.avail (.spindle n)).phase ≠ .initialAck := by
          intro n hn hcontrolled hphase
          obtain ⟨hzero, hat, -⟩ := started_passed hstarted hpassed hn hcontrolled hphase
          omega
        have hstarted' : Started size
            { s with availabilityResource := s.availabilityResource + k } :=
          ⟨hstarted.latched, fun n hn hcontrolled hphase => absurd hphase (hnone n hn hcontrolled)⟩
        rw [if_pos hend]
        cases henable : inputs.enable with
        | true =>
          rw [if_pos rfl]
          refine ⟨⟨⟨hstarted.latched, fun n hn hc hphase => absurd hphase (hnone n hn hc)⟩,
              (absurd · Bool.false_ne_true), (absurd · Bool.false_ne_true)⟩,
            fun _ _ _ => ⟨henable, fun n hn => hall n hn (hend ▸ hn), fun r hr => not_faulted hfaulted hr⟩⟩
        | false =>
          rw [if_neg (by decide)]
          refine ⟨hstarted'.cancel true _, fun _ _ henabling => ?_⟩
          rw [(availabilityCancel_flags size _ true _).2.2] at henabling
          simp at henabling
      | begun hk _ hstate hinitial =>
        have hlt : s.availabilityResource + k < size.spindles := by omega
        have hbegun := begun_scanning hstarted hbehind hpassed hon hlt hstate hinitial inputs.stamp
        split
        · next hend => exact absurd hend (Nat.ne_of_lt hlt)
        · exact ⟨hbegun, fun _ hended => absurd (hended.symm.trans hon) (by decide)⟩
      | stopped hk hcontrolled hstate hwaits =>
        have hlt : s.availabilityResource + k < size.spindles := by omega
        rw [if_neg (Nat.ne_of_lt hlt)] at hinv ⊢
        refine ⟨stopped_scanning hstarted hbehind hpassed hon hlt ?_, fun _ hended => ?_⟩
        · cases hcase : (s.avail (.spindle (s.availabilityResource + k))).state with
          | enabling => exact .inl rfl
          | disabling => exact .inr rfl
          | disabled => exact absurd hcase hstate
          | available => exact absurd hcase hwaits
          | homing => exact absurd ((hinv _ hcontrolled).homing hcase) Bool.false_ne_true
          | fault =>
            exact absurd (not_faulted hfaulted (spindle_mem_order hlt) hcontrolled)
              (hstarted.latched _ hcontrolled hcase)
        · cases hended.symm.trans hon

theorem machineOn_pending (h : (s.machineOn size inputs).availabilityMachineOn = true) :
    s.availabilityMachineOn = true ∧ (s.machineOn size inputs).enabling = s.enabling := by
  have hscan : ∀ left (t : Availability D), (scanSpindles inputs t left).enabling = t.enabling := by
    intro left t
    obtain ⟨k, hscanned, -⟩ : ∃ k, Scanned inputs t _ k _ ∧ _ := scanSpindles_scanned t left
    generalize scanSpindles inputs t left = t' at hscanned ⊢
    cases hscanned <;> rfl
  simp only [machineOn] at h ⊢
  split_ifs at h ⊢ with hoff hfaulted hend henable
  · simp [h] at hoff
  · rw [(availabilityCancel_flags size s true _).2.1] at h
    cases h
  · rw [(availabilityCancel_flags size _ true _).2.1] at h
    cases h
  · exact ⟨by simpa using hoff, hscan _ s⟩

theorem rest_over (h : s.availabilityMachineOn = false) (rest : List Resource) :
    ((rest.foldl (processResource size inputs) s).machineOn size inputs).availabilityMachineOn = false ∧
      (((rest.foldl (processResource size inputs) s).machineOn size inputs).enabling = true →
        s.enabling = true) := by
  have hloop : (rest.foldl (processResource size inputs) s).availabilityMachineOn = false ∧
      ((rest.foldl (processResource size inputs) s).enabling = true → s.enabling = true) := by
    induction rest generalizing s with
    | nil => exact ⟨h, id⟩
    | cons r rest ih =>
      have hturned : Turned size inputs r s _ := processResource_turned s r
      obtain ⟨hended, henabling⟩ := ih (hturned.ended h)
      exact ⟨hended, fun hset => hturned.enabling (henabling hset)⟩
  rw [machineOn_over hloop.1]
  exact hloop

theorem checkEnable_flags (s : Availability D) :
    ((s.checkEnable size inputs).availabilityMachineOn = true → s.availabilityMachineOn = true) ∧
      ((s.checkEnable size inputs).enabling = true → s.enabling = true) ∧
      (s.availabilityMachineOn = true → (s.checkEnable size inputs).availabilityMachineOn = false →
        (s.checkEnable size inputs).enabling = false) := by
  simp only [checkEnable]
  split_ifs
  · obtain ⟨-, hended, henabling⟩ := availabilityCancel_flags size s true inputs.stamp
    simp [hended, henabling]
  · refine ⟨id, id, fun hon hoff => ?_⟩
    cases hoff.symm.trans hon

theorem processAvailability_scanning (h : s.Scanning size) (hinv : (s.processAvailability size inputs).Inv) :
    (s.processAvailability size inputs).Scanning size ∧
      (s.availabilityMachineOn = true → (s.processAvailability size inputs).availabilityMachineOn = false →
        (s.processAvailability size inputs).enabling = true →
          Enabled size inputs (s.processAvailability size inputs)) ∧
      (s.availabilityMachineOn = false ∨ (s.processAvailability size inputs).availabilityMachineOn = true →
        (s.processAvailability size inputs).enabling = true → s.enabling = true) := by
  rw [processAvailability_eq] at hinv ⊢
  obtain ⟨hpending₀, henabling₀, hended₀⟩ :
      ((s.checkEnable size inputs).availabilityMachineOn = true → _) ∧ _ ∧ _ := checkEnable_flags s
  have hscanning : (s.checkEnable size inputs).Scanning size := checkEnable_scanning h
  generalize s.checkEnable size inputs = s₀ at hinv hpending₀ henabling₀ hended₀ hscanning ⊢
  have hpassed : Passed size inputs size.order s₀ (size.order.foldl (processResource size inputs) s₀) :=
    foldl_passed (order_nodup size)
  generalize size.order.foldl (processResource size inputs) s₀ = s₁ at hinv hpassed ⊢
  have hready : s₁.availabilityMachineOn = true → s₁.faulted size = false →
      s₁.Behind size ∧ s₁.availabilityResource ≤ size.spindles := by
    intro hon hfaulted
    obtain ⟨hon₀, hcursor⟩ := hpassed.cursor hon
    refine ⟨fun n hn hlt hcontrolled hinitial => ?_, ?_⟩
    · rcases hpassed.each with ⟨r, hr, hr', hfault⟩ | ⟨heach, -⟩
      · exact absurd (not_faulted hfaulted hr hr') hfault
      · obtain ⟨hsame, hcalm⟩ := heach _ (spindle_mem_order hn)
        rw [hpassed.controlled] at hcontrolled
        exact hcalm.up hcontrolled (hscanning.behind hon₀ n hn (hcursor ▸ hlt) hcontrolled (hsame ▸ hinitial))
    · rw [hcursor]
      rcases Nat.eq_zero_or_pos s₀.availabilityResource with hzero | hpos
      · rw [hzero]
        exact Nat.zero_le _
      · exact Nat.le_of_lt (hscanning.waiting hon₀ hpos).1
  obtain ⟨hscanning', henabled⟩ := machineOn_scanning (hpassed.started hscanning.toStarted) hready hinv
  refine ⟨hscanning', fun hon hoff henabling => ?_, fun hor henabling => ?_⟩
  · cases hon₁ : s₁.availabilityMachineOn with
    | true => exact henabled hon₁ hoff henabling
    | false =>
      -- something before the end has cancelled it, and lowered `enabling`
      rw [machineOn_over hon₁] at henabling
      cases hon₀ : s₀.availabilityMachineOn with
      | true => exact absurd ((hpassed.ended hon₀ hon₁).symm.trans henabling) (by decide)
      | false => exact absurd ((hended₀ hon hon₀).symm.trans (hpassed.enabling henabling)) (by decide)
  · rcases hor with hoff | hon
    · have hoff₁ : s₁.availabilityMachineOn = false := by
        rw [Bool.eq_false_iff]
        intro hon₁
        exact absurd (hoff.symm.trans (hpending₀ (hpassed.cursor hon₁).1)) (by decide)
      rw [machineOn_over hoff₁] at henabling
      exact henabling₀ (hpassed.enabling henabling)
    · rw [(machineOn_pending hon).2] at henabling
      exact henabling₀ (hpassed.enabling henabling)

end Availability

end LinuxcncCtrl
