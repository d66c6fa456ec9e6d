import LinuxcncCtrl.Sanity.AvailabilityPins

/-! One iteration of the loops of `process_availability`. The invariant of a resource relates its state, its
phase, its target and its request pin; without the pin it holds between the switch and the pins too. An iteration
drops its resource with a fault, or moves its record. -/

namespace LinuxcncCtrl

variable {D : Type}

def Resource.isJoint : Resource → Bool
  | .joint _ => true
  | .spindle _ => false

namespace AvailabilityStatus

/-- The record of a controlled resource, whatever its pins. A joint is acquired at run time only. -/
structure Ordered (r : Resource) (a : AvailabilityStatus D) : Prop where
  active : a.state = .enabling ∨ a.state = .homing ∨ a.state = .available → a.targetAvailable = true
  enabling : a.state = .enabling → r.isJoint = true → a.phase = .runtimeAck
  homing : a.state = .homing → r.isJoint = true
  resting : a.state = .disabled ∨ a.state = .fault →
    a.targetAvailable = false ∧ (r.isJoint = true → a.phase ≠ .waitSettled)
  releasing : a.state = .disabling → a.targetAvailable = true → r.isJoint = true → a.phase = .runtimeAck

/-- The record with the request pin, between two calls. -/
structure Inv (r : Resource) (a : AvailabilityStatus D) (request : Bool) : Prop extends Ordered r a where
  high : a.state = .homing ∨ a.state = .available → request = true
  low : a.state = .disabled ∨ a.state = .fault ∨ a.state = .disabling ∧ a.targetAvailable = true →
    request = false

end AvailabilityStatus

namespace Availability

variable {s s' s₁ s₀ : Availability D} {r : Resource} {size : MachineSize}
  {inputs : AvailabilityInputs D} {fault : AvailabilityFault} {a : AvailabilityStatus D} {n : ℕ}

theorem Down.ordered (h : s.Down r fault) : (s.avail r).Ordered r := by
  constructor <;> simp [h.state, h.target]

theorem Down.inv (h : s.Down r fault) : (s.avail r).Inv r (s.pins r).request := by
  refine ⟨h.ordered, ?_, ?_⟩ <;> simp [h.state, h.target]

theorem Eased.inv (h : Eased s s' r) (hinv : (s.avail r).Inv r (s.pins r).request) :
    (s'.avail r).Inv r (s'.pins r).request := by
  rcases h with ⟨havail, hpins⟩ | ⟨-, hdown, -⟩
  · rw [havail, hpins]
    exact hinv
  · exact hdown.inv

variable [CDouble D]

/-- What an iteration that does not drop `r` makes of its record. The request is raised only when the
acknowledge is low, and what becomes available is requested, and a joint validated or homed. -/
structure Moves (inputs : AvailabilityInputs D) (r : Resource) (s : Availability D)
    (a : AvailabilityStatus D) : Prop where
  controlled : a.controlled = true
  ordered : a.Ordered r
  target : a.targetAvailable = true → (s.avail r).targetAvailable = true
  raised : a.state = .enabling ∨ a.state = .homing ∨ a.state = .available →
    (s.pins r).request = true ∨ inputs.ack r = false
  homing : a.state = .homing → a.phase ≠ .waitFree →
    (s.avail r).state = .homing ∧ ((s.avail r).phase = .waitFree → a.phase = .waitHomeStart)
  up : a.state = .available → inputs.ack r = true ∧ ∀ n, r = .joint n → inputs.homed n = true
  entered : (s.avail r).state ≠ .available → a.state = .available →
    (s.pins r).request = true ∧ ∀ n, r = .joint n → s.validateJointPosition inputs n = true ∨
      (s.avail r).state = .homing ∧ (s.avail r).phase ≠ .waitFree ∧ inputs.homeIdle n = true
  lost : (s.avail r).state = .available → inputs.ack r = true

theorem Moves.of_rest (hcontrolled : a.controlled = true) (hordered : a.Ordered r)
    (htarget : a.targetAvailable = true → (s.avail r).targetAvailable = true)
    (hstate : a.state = .disabled ∨ a.state = .fault ∨ a.state = .disabling)
    (hbefore : (s.avail r).state ≠ .available) : Moves inputs r s a := by
  refine ⟨hcontrolled, hordered, htarget, ?_, ?_, ?_, ?_, fun hup => absurd hup hbefore⟩
  all_goals rcases hstate with hstate | hstate | hstate <;> simp [hstate]

theorem Moves.of_entered (hcontrolled : a.controlled = true) (hstate : a.state = .available)
    (htarget : a.targetAvailable = true) (hbefore : (s.avail r).targetAvailable = true)
    (hrequest : (s.pins r).request = true) (hack : inputs.ack r = true)
    (hhomed : ∀ n, r = .joint n → inputs.homed n = true)
    (hjoint : ∀ n, r = .joint n → s.validateJointPosition inputs n = true ∨
      (s.avail r).state = .homing ∧ (s.avail r).phase ≠ .waitFree ∧ inputs.homeIdle n = true) :
    Moves inputs r s a := by
  refine ⟨hcontrolled, ?_, fun _ => hbefore, fun _ => .inl hrequest, ?_, fun _ => ⟨hack, hhomed⟩,
    fun _ _ => ⟨hrequest, hjoint⟩, fun _ => hack⟩
  · constructor <;> simp [hstate, htarget]
  · simp [hstate]

/-- The iteration has dropped `r` with a fault, or moved its record. -/
def Examined (inputs : AvailabilityInputs D) (r : Resource) (s s' : Availability D) : Prop :=
  (s.avail r).controlled = true → (s.avail r).Inv r (s.pins r).request →
    (∃ fault, fault ≠ .none ∧ s'.Down r fault) ∨ Moves inputs r s (s'.avail r)

def Walked (size : MachineSize) (inputs : AvailabilityInputs D) (r : Resource) (s : Availability D) (fails : Bool)
    (s' : Availability D) : Prop :=
  Switched size inputs r s fails s' ∧ Examined inputs r s s'

theorem fault_walked (h : (s.avail r).controlled = true) (hfault : fault ≠ .none) :
    Walked size inputs r s true (s.setFault size inputs fault r) :=
  ⟨fault_switched h hfault, fun _ _ => .inl ⟨fault, hfault, setFault_down h fault⟩⟩

theorem same_walked (henabling : (s.avail r).state = .enabling → inputs.ack r = false)
    (hup : (s.avail r).state = .available → inputs.ack r = true ∧ ∀ n, r = .joint n → inputs.homed n = true) :
    Walked size inputs r s false s := by
  refine ⟨.same s, fun h hinv => .inr ⟨h, hinv.toOrdered, id, ?_, fun hstate hphase => ⟨hstate, ?_⟩, hup,
    fun hnot hstate => absurd hstate hnot, fun hstate => (hup hstate).1⟩⟩
  · rintro (hstate | hstate | hstate)
    · exact .inr (henabling hstate)
    · exact .inl (hinv.high (.inl hstate))
    · exact .inl (hinv.high (.inr hstate))
  · exact fun hfree => absurd hfree hphase

theorem jointEnabling_walked (h : (s.avail (.joint n)).controlled = true)
    (hstate : (s.avail (.joint n)).state = .enabling) :
    Walked size inputs (.joint n) s (s.jointFails inputs n) (s.jointEnabling size inputs n) := by
  have hnot : (s.avail (.joint n)).state ≠ .available := by simp [hstate]
  simp only [jointFails, hstate]
  unfold jointEnabling
  cases hack : inputs.ack (.joint n) with
  | false =>
    simp only [Bool.false_and, Bool.false_eq_true, if_false]
    cases hlate : (s.avail (.joint n)).timedOut inputs.now with
    | true => exact fault_walked h (by decide)
    | false => exact same_walked (fun _ => hack) fun hup => absurd hup hnot
  | true =>
    cases hrequest : (s.pins (.joint n)).request with
    | false => exact fault_walked h (by decide)
    | true =>
      simp only [Bool.not_true, Bool.and_false, Bool.false_eq_true, if_false, if_true, Bool.false_or]
      by_cases hhome : (!inputs.homed n) = true ∧ (s.avail (.joint n)).phase = .runtimeAck
      · rw [if_pos hhome]
        simp only [hhome.1, hhome.2, decide_true, Bool.and_self, Bool.not_true, Bool.false_and]
        refine ⟨.calm (.of_setAvail rfl rfl rfl rfl rfl rfl rfl rfl fun _ _ => rfl)
          ⟨?_, ?_, ?_, ?_, ?_, ?_, ?_⟩, fun h hinv => .inr ?_⟩
        iterate 7 simp [setAvail, Lingers, hstate]
        have htarget : (s.avail (.joint n)).targetAvailable = true := hinv.active (.inl hstate)
        refine ⟨by simpa [setAvail] using h, ?_, fun _ => htarget, fun _ => .inl hrequest, ?_, ?_, ?_, ?_⟩
        · constructor <;> simp [setAvail, htarget, Resource.isJoint]
        all_goals simp [setAvail, hstate]
      · rw [if_neg hhome]
        have hnothome : (!(!inputs.homed n && decide ((s.avail (.joint n)).phase = .runtimeAck))) = true := by
          simpa [or_iff_not_imp_left] using hhome
        rw [hnothome, Bool.true_and]
        cases hvalid : s.validateJointPosition inputs n with
        | false => exact fault_walked h (by decide)
        | true =>
          have hlocal : Local inputs (.joint n) s (s.setJoint n
              { s.joints n with active := true, enable := s.enableFlag }) :=
            ⟨fun _ _ => rfl, fun _ _ => rfl, rfl, rfl, rfl, rfl, rfl, id, fun _ => calibration_update rfl⟩
          refine ⟨completeJoint_switched hlocal rfl (by simp [hstate]), fun h hinv => .inr ?_⟩
          have htarget : (s.avail (.joint n)).targetAvailable = true := hinv.active (.inl hstate)
          rw [if_neg (by decide), completeJoint_record]
          refine .of_entered h rfl htarget htarget hrequest hack ?_ ?_
          · rintro _ ⟨⟩
            by_contra hhomed
            exact hhome ⟨by simpa using hhomed, hinv.enabling hstate rfl⟩
          · rintro _ ⟨⟩
            exact .inl hvalid

theorem jointHoming_walked (h : (s.avail (.joint n)).controlled = true)
    (hstate : (s.avail (.joint n)).state = .homing) :
    Walked size inputs (.joint n) s (s.jointFails inputs n) (s.jointHoming size inputs n) := by
  have hnot : (s.avail (.joint n)).state ≠ .available := by simp [hstate]
  have hsame : Walked size inputs (.joint n) s false s :=
    same_walked (by simp [hstate]) fun hup => absurd hup hnot
  simp only [jointFails, hstate]
  unfold jointHoming
  cases hack : inputs.ack (.joint n) with
  | false => exact fault_walked h (by decide)
  | true =>
    have hfinish : (s.avail (.joint n)).phase ≠ .waitFree → inputs.homed n = true → inputs.homeIdle n = true →
        Walked size inputs (.joint n) s false (s.availabilityFinishHoming inputs n) := by
      intro hphase hhomed hidle
      refine ⟨completeJoint_switched (.refl _ s) rfl (by simp [hstate]), fun h hinv => .inr ?_⟩
      have htarget : (s.avail (.joint n)).targetAvailable = true := hinv.active (.inr (.inl hstate))
      rw [availabilityFinishHoming, completeJoint_record]
      refine .of_entered h rfl htarget htarget (hinv.high (.inl hstate)) hack ?_ ?_
      · rintro _ ⟨⟩
        exact hhomed
      · rintro _ ⟨⟩
        exact .inr ⟨hstate, hphase, hidle⟩
    -- homing goes on with another phase
    have hmoves : ∀ a : AvailabilityStatus D, a.controlled = true → a.targetAvailable = true →
        a.state = .homing → ((s.avail (.joint n)).phase = .waitFree → a.phase = .waitHomeStart) →
        (s.avail (.joint n)).Inv (.joint n) (s.pins (.joint n)).request → Moves inputs (.joint n) s a := by
      intro a hcontrolled htarget hhoming hphase hinv
      refine ⟨hcontrolled, ?_, fun _ => hinv.active (.inr (.inl hstate)), fun _ => .inl (hinv.high (.inl hstate)),
        fun _ _ => ⟨hstate, hphase⟩, ?_, ?_, fun hup => absurd hup hnot⟩
      · constructor <;> simp [hhoming, htarget, Resource.isJoint]
      all_goals simp [hhoming]
    simp only [Bool.not_true, Bool.false_eq_true, if_false, Bool.false_or]
    by_cases hfree : (s.avail (.joint n)).phase = .waitFree
    · rw [if_pos hfree, if_pos hfree]
      by_cases hmode : inputs.motionState = .free
      · rw [if_neg (not_not.mpr hmode)]
        simp only [hmode, decide_true, Bool.true_and]
        cases hinhibit : inputs.homingInhibit with
        | true => exact fault_walked h (by decide)
        | false =>
          cases hstart : s.availabilityStartHoming inputs n with
          | none => exact fault_walked h (by decide)
          | some s₁ =>
            obtain ⟨hlocal, havail⟩ := startHoming_local hstart
            simp only [Bool.false_eq_true, if_false]
            refine ⟨.calm (hlocal.trans (.of_setAvail rfl rfl ?_ ?_ rfl rfl rfl rfl fun _ _ => rfl))
              ⟨?_, ?_, ?_, ?_, ?_, ?_, ?_⟩, fun h hinv => .inr ?_⟩
            iterate 9 simp [setAvail, Lingers, hstate, havail]
            rw [avail_setAvail]
            exact hmoves _ h (hinv.active (.inr (.inl hstate))) hstate (fun _ => rfl) hinv
      · rw [if_pos hmode]
        simp only [hmode, decide_false, Bool.false_and]
        exact hsame
    · rw [if_neg hfree, if_neg hfree]
      by_cases hwait : (s.avail (.joint n)).phase = .waitHomeStart
      · rw [if_pos hwait, if_pos hwait]
        cases hhoming : inputs.homing n with
        | true =>
          refine ⟨.calm (.of_setAvail rfl rfl rfl rfl rfl rfl rfl rfl fun _ _ => rfl)
            ⟨?_, ?_, ?_, ?_, ?_, ?_, ?_⟩, fun h hinv => .inr ?_⟩
          iterate 7 simp [setAvail, Lingers, hstate]
          rw [if_pos rfl, avail_setAvail]
          exact hmoves _ h (hinv.active (.inr (.inl hstate))) hstate (fun heq => absurd heq hfree) hinv
        | false =>
          cases hdone : inputs.homed n && inputs.homeIdle n with
          | true =>
            rw [Bool.and_eq_true] at hdone
            exact hfinish hfree hdone.1 hdone.2
          | false =>
            cases hlate : (s.avail (.joint n)).timedOut inputs.now with
            | true => exact fault_walked h (by decide)
            | false => exact hsame
      · rw [if_neg hwait, if_neg hwait]
        cases hidle : inputs.homeIdle n with
        | false => exact hsame
        | true =>
          cases hhomed : inputs.homed n with
          | true => exact hfinish hfree hhomed hidle
          | false => exact fault_walked h (by decide)

theorem jointAvailable_walked (h : (s.avail (.joint n)).controlled = true)
    (hstate : (s.avail (.joint n)).state = .available) :
    Walked size inputs (.joint n) s (s.jointFails inputs n) (s.jointAvailable size inputs n) := by
  simp only [jointFails, hstate, jointAvailable]
  cases hhomed : inputs.homed n with
  | false => exact fault_walked h (by decide)
  | true =>
    cases hack : inputs.ack (.joint n) with
    | false => exact fault_walked h (by decide)
    | true =>
      refine same_walked (by simp [hstate]) fun _ => ⟨hack, fun n' hn' => ?_⟩
      cases hn'
      exact hhomed

/-- A release that the switch goes on with from `s`; `s₀` is the state before the switch. -/
structure Releasing (inputs : AvailabilityInputs D) (r : Resource) (s₀ s : Availability D) : Prop where
  stays : Local inputs r s₀ s
  fault : (s.avail r).fault = (s₀.avail r).fault ∨ (s.avail r).fault = .none
  phase : (s.avail r).phase = .initialAck → (s₀.avail r).phase = .initialAck
  state : (s.avail r).state = .disabling
  before : (s₀.avail r).state = .disabling
  settled : r.isJoint = true → (s.avail r).phase ≠ .waitSettled
  target : (s.avail r).targetAvailable = true → (s₀.avail r).targetAvailable = true
  kept : inputs.ack r = false → (s₀.avail r).targetAvailable = true → (s.avail r).targetAvailable = true
  ordered : (s₀.avail r).Ordered r → (s.avail r).Ordered r

theorem Releasing.walked (h : Releasing inputs r s₀ s) : Walked size inputs r s₀ false s := by
  refine ⟨.calm h.stays ⟨h.fault, fun _ _ => h.state, ?_, ?_, ?_, ?_, fun _ hinitial => ⟨h.phase hinitial, ?_⟩⟩,
    fun hcontrolled hinv => .inr ?_⟩
  iterate 5 simp [h.state, h.before]
  exact .of_rest (h.stays.controlled.trans hcontrolled) (h.ordered hinv.toOrdered) h.target (by simp [h.state])
    (by simp [h.before])

theorem releaseEnd_walked (h : Releasing inputs r s₀ s) (hlingers : s₀.Lingers inputs r → inputs.ack r = true)
    (name : String) : Walked size inputs r s₀ (inputs.ack r && (s.avail r).timedOut inputs.now)
      (s.releaseEnd size inputs r name) := by
  have hset : ∀ a : AvailabilityStatus D, a.controlled = (s.avail r).controlled →
      a.initialAvailable = (s.avail r).initialAvailable → Local inputs r s₀ (s.setAvail r a) :=
    fun a hcontrolled hinitial =>
      h.stays.trans (.of_setAvail rfl rfl hcontrolled hinitial rfl rfl rfl rfl fun _ _ => rfl)
  have hnot : (s₀.avail r).state ≠ .available := by simp [h.before]
  simp only [releaseEnd]
  cases hack : inputs.ack r with
  | false =>
    have hended : ∀ a : AvailabilityStatus D, a.fault = (s.avail r).fault → a.phase = (s.avail r).phase →
        (a.state = .fault → (s.avail r).fault ≠ .none) → a.state ≠ .available →
        (a.state = .disabled → (s.avail r).targetAvailable ≠ true) → Calm inputs r s₀ (s.setAvail r a) := by
      intro a hsame hsamePhase hlatched hdown hrest
      refine ⟨?_, fun _ hl => ?_, fun _ hbusy hoff => ?_, ?_, fun _ _ => ?_, fun _ => ?_, fun _ => ?_⟩
      · simpa [hsame] using h.fault
      · simpa [hack] using hlingers hl
      · rw [avail_setAvail] at hoff
        exact hrest hoff (h.kept hack ((hbusy h.before).resolve_left (by simp [hack])))
      · simp [h.before]
      · simp [hdown]
      · simpa [hsame] using hlatched
      · simpa [hsamePhase, h.before] using h.phase
    simp only [Bool.not_false, if_true, Bool.false_and]
    split
    next htarget =>
      refine ⟨.calm (hset _ rfl rfl) (hended _ rfl rfl (by simp) (by simp) (by simp)),
        fun hcontrolled hinv => .inr ?_⟩
      rw [avail_setAvail]
      refine ⟨h.stays.controlled.trans hcontrolled, ?_, h.target, fun _ => .inr hack, ?_, ?_, ?_,
        fun hup => absurd hup hnot⟩
      · constructor <;> simp [htarget]
        exact (h.ordered hinv.toOrdered).releasing h.state htarget
      all_goals simp
    next htarget =>
      have hrest : (if (s.avail r).fault = .none then AvailabilityState.disabled else .fault) = .disabled ∨
          (if (s.avail r).fault = .none then AvailabilityState.disabled else .fault) = .fault := by
        split_ifs <;> simp
      refine ⟨.calm (hset _ rfl rfl) (hended _ rfl rfl (fun hlatched hnone => ?_) ?_ fun _ => htarget),
        fun hcontrolled hinv => .inr ?_⟩
      · simp [hnone] at hlatched
      · rcases hrest with hrest | hrest <;> simp [hrest]
      · rw [avail_setAvail]
        refine .of_rest (h.stays.controlled.trans hcontrolled) ?_ h.target ?_ hnot
        · rw [Bool.not_eq_true] at htarget
          rcases hrest with hrest | hrest <;> rw [hrest] <;> constructor <;> simp [htarget] <;> exact h.settled
        · rcases hrest with hrest | hrest <;> simp [hrest]
  | true =>
    simp only [Bool.not_true, Bool.false_eq_true, if_false, Bool.true_and]
    cases hlate : (s.avail r).timedOut inputs.now with
    | true =>
      simp only [if_true, releaseTimedOut]
      set timedOut := (s.setAvail r _).reportError _ with htimedOut
      have hfault : (timedOut.avail r).fault ≠ .none := by
        simp only [htimedOut, reportError, avail_setAvail]
        split_ifs with hnone
        · decide
        · exact hnone
      refine ⟨.failed (.trans ?_ (reportError_local (s.setAvail r _) r _)) hfault ?_ ?_, fun hcontrolled hinv => ?_⟩
      · exact hset _ rfl rfl
      · simp [htimedOut, reportError, AvailabilityStatus.availabilityClearPending]
      · simp [h.before]
      · rcases availabilityMotionFault_eased size timedOut inputs r with ⟨havail, -⟩ | ⟨-, hdown, -⟩
        · refine .inr ?_
          rw [havail, htimedOut, reportError, avail_setAvail]
          refine .of_rest (h.stays.controlled.trans hcontrolled) ?_ ?_ (.inr (.inl rfl)) hnot
          · constructor <;> simp [AvailabilityStatus.availabilityClearPending]
          · simp [AvailabilityStatus.availabilityClearPending]
        · exact .inl ⟨_, hfault, hdown⟩
    | false =>
      simp only [Bool.false_eq_true, if_false]
      exact h.walked

/-- A cancelled homing that has stopped is frozen; it has no target left. -/
theorem Releasing.frozen (h : Releasing inputs (.joint n) s₀ s)
    (hphase : (s.avail (.joint n)).phase = .cancelHome) : Releasing inputs (.joint n) s₀ (s.freezeJoint n) := by
  have hlocal : Local inputs (.joint n) s (s.freezeJoint n) :=
    .of_setAvail rfl rfl rfl rfl rfl rfl rfl rfl fun _ => calibration_update rfl
  refine ⟨h.stays.trans hlocal, ?_, ?_, ?_, h.before, ?_, ?_, ?_, fun hordered => ?_⟩
  · simpa [freezeJoint, setJoint, setAvail] using h.fault
  · simp [freezeJoint, setJoint, setAvail]
  · simpa [freezeJoint, setJoint, setAvail] using h.state
  · simp [freezeJoint, setJoint, setAvail]
  · simpa [freezeJoint, setJoint, setAvail] using h.target
  · simpa [freezeJoint, setJoint, setAvail] using h.kept
  · have htarget : (s.avail (.joint n)).targetAvailable = false := by
      rw [Bool.eq_false_iff]
      intro htarget
      simp [(h.ordered hordered).releasing h.state htarget rfl] at hphase
    constructor <;> simp [freezeJoint, setAvail, setJoint, h.state, htarget]

theorem jointCancelHome_walked (h : Releasing inputs (.joint n) s₀ s)
    (hlingers : s₀.Lingers inputs (.joint n) → inputs.ack (.joint n) = true ∨
      (s.avail (.joint n)).phase = .cancelHome ∧ inputs.homeIdle n = false) :
    Walked size inputs (.joint n) s₀
      (((s.avail (.joint n)).phase ≠ .cancelHome || inputs.homeIdle n) &&
        (inputs.ack (.joint n) && (s.avail (.joint n)).timedOut inputs.now))
      (s.jointCancelHome size inputs n) := by
  unfold jointCancelHome
  by_cases hphase : (s.avail (.joint n)).phase = .cancelHome
  · rw [if_pos hphase]
    simp only [hphase, ne_eq, not_true_eq_false, decide_false, Bool.false_or]
    cases hidle : inputs.homeIdle n with
    | false =>
      simp only [Bool.not_false, if_true, Bool.false_and]
      exact h.walked
    | true =>
      have hlate : ((s.freezeJoint n).avail (.joint n)).timedOut inputs.now =
          (s.avail (.joint n)).timedOut inputs.now := by
        simp [freezeJoint, setJoint, setAvail, AvailabilityStatus.timedOut]
      have hended : Walked size inputs (.joint n) s₀ _ _ :=
        releaseEnd_walked (h.frozen hphase) (fun hl => ?_) ("joint " ++ toString n)
      · rw [hlate] at hended
        exact hended
      · rcases hlingers hl with hack | ⟨-, hbusy⟩
        · exact hack
        · simp [hidle] at hbusy
  · rw [if_neg hphase]
    simp only [hphase, ne_eq, not_false_eq_true, decide_true, Bool.true_or, Bool.true_and]
    apply releaseEnd_walked h
    intro hl
    rcases hlingers hl with hack | ⟨hcancel, -⟩
    · exact hack
    · exact absurd hcancel hphase

omit [CDouble D] in
theorem Releasing.refl (hstate : (s.avail r).state = .disabling)
    (hphase : r.isJoint = true → (s.avail r).phase ≠ .waitSettled) : Releasing inputs r s s :=
  ⟨.refl r s, .inl rfl, id, hstate, hstate, hphase, id, fun _ => id, id⟩

theorem jointDisabling_walked (h : (s.avail (.joint n)).controlled = true)
    (hstate : (s.avail (.joint n)).state = .disabling) :
    Walked size inputs (.joint n) s (s.jointFails inputs n) (s.jointDisabling size inputs n) := by
  have hfails : s.jointFails inputs n =
      if (s.avail (.joint n)).phase = .waitSettled then
        !inputs.ack (.joint n) ||
          if inputs.releaseState n = .ready then
            inputs.homeIdle n && decide ((s.avail (.joint n)).timeout ≤ inputs.now - inputs.stamp)
          else (s.avail (.joint n)).timedOut inputs.now
      else (decide ((s.avail (.joint n)).phase ≠ .cancelHome) || inputs.homeIdle n) &&
        inputs.ack (.joint n) && (s.avail (.joint n)).timedOut inputs.now := by
    simp only [jointFails, hstate]
  rw [hfails]
  unfold jointDisabling
  by_cases hphase : (s.avail (.joint n)).phase = .waitSettled
  · rw [if_pos hphase, if_pos hphase]
    cases hack : inputs.ack (.joint n) with
    | false => exact fault_walked h (by decide)
    | true =>
      simp only [Bool.not_true, Bool.false_eq_true, if_false, Bool.false_or]
      by_cases hready : inputs.releaseState n = .ready
      · rw [if_pos hready, if_neg (not_not.mpr hready)]
        -- settled: the joint is held at its coarse position and released
        set s₁ := (s.setAvail (.joint n)
          { s.avail (.joint n) with heldPosition := (s.joints n).coarsePos }).setJoint n
            { s.joints n with posCmd := (s.joints n).coarsePos } with hs₁
        have hcontrolled : (s₁.avail (.joint n)).controlled = true := by
          simpa [hs₁, setJoint, setAvail] using h
        have hlocal : Local inputs (.joint n) s s₁ :=
          .of_setAvail rfl rfl rfl rfl rfl rfl rfl rfl fun _ => calibration_update rfl
        have hdrops := release_drops hcontrolled .none inputs.stamp
        have hreleasing : Releasing inputs (.joint n) s (s₁.release .none inputs.stamp (.joint n)) := by
          refine ⟨hlocal.trans (release_local inputs s₁ _ _ _), .inr hdrops.self.fault,
            fun hinitial => absurd hinitial hdrops.self.initial, hdrops.self.state, hstate,
            fun _ => hdrops.self.phase, ?_, fun hlow => ?_, fun _ => hdrops.self.ordered⟩
          · simp [hdrops.self.target]
          · cases hlow.symm.trans hack
        have hended : Walked size inputs (.joint n) s _ _ :=
          jointCancelHome_walked hreleasing fun _ => .inl hack
        have hreleased : ((s₁.release .none inputs.stamp (.joint n)).avail (.joint n)).phase = .cancelHome ∧
            ((s₁.release .none inputs.stamp (.joint n)).avail (.joint n)).timedOut inputs.now =
              decide ((s.avail (.joint n)).timeout ≤ inputs.now - inputs.stamp) := by
          simp only [release, availabilityReleaseJoint, hcontrolled, Bool.not_true, Bool.false_eq_true, if_false]
          simp [setJoint, lowerRequest, setAvail, AvailabilityStatus.timedOut,
            AvailabilityStatus.availabilityClearPending, hs₁]
        rw [hreleased.1, hreleased.2, hack] at hended
        simpa [release] using hended
      · rw [if_neg hready, if_pos hready]
        cases hlate : (s.avail (.joint n)).timedOut inputs.now with
        | true => exact fault_walked h (by decide)
        | false => exact same_walked (by simp [hstate]) (by simp [hstate])
  · rw [if_neg hphase, if_neg hphase, Bool.and_assoc]
    refine jointCancelHome_walked (.refl hstate fun _ => hphase) ?_
    rintro ⟨-, hack | ⟨hphase, n', hn', hbusy⟩⟩
    · exact .inl hack
    · cases hn'
      exact .inr ⟨hphase, hbusy⟩

theorem free_walked (h : (s.avail r).controlled = false) :
    Walked size inputs r s false (s.setAvail r { s.avail r with state := .available }) := by
  refine ⟨.calm (.of_setAvail rfl rfl rfl rfl rfl rfl rfl rfl fun _ _ => rfl) ⟨?_, ?_, ?_, ?_, ?_, ?_, ?_⟩,
    fun hcontrolled => absurd (h.symm.trans hcontrolled) (by decide)⟩
  all_goals simp [setAvail, h]

theorem examineJoint_walked (s : Availability D) (n : ℕ) :
    Walked size inputs (.joint n) s (s.fails inputs (.joint n)) (s.examineJoint size inputs n) := by
  cases h : (s.avail (.joint n)).controlled with
  | false =>
    rw [fails, h, examineJoint, if_pos (by simp [h])]
    exact free_walked h
  | true =>
    simp only [fails, examineJoint, h, Bool.true_and, Bool.not_true, Bool.false_eq_true, if_false]
    cases hstate : (s.avail (.joint n)).state with
    | disabled =>
      simp only [jointFails, hstate]
      cases hack : inputs.ack (.joint n) with
      | true => exact fault_walked h (by decide)
      | false => exact same_walked (by simp [hstate]) (by simp [hstate])
    | enabling => exact jointEnabling_walked h hstate
    | homing => exact jointHoming_walked h hstate
    | available => exact jointAvailable_walked h hstate
    | disabling => exact jointDisabling_walked h hstate
    | fault =>
      simp only [jointFails, hstate]
      exact same_walked (by simp [hstate]) (by simp [hstate])

theorem spindleEnabling_walked (h : (s.avail (.spindle n)).controlled = true)
    (hstate : (s.avail (.spindle n)).state = .enabling) :
    Walked size inputs (.spindle n) s (s.spindleFails inputs n) (s.spindleEnabling size inputs n) := by
  simp only [spindleFails, hstate, spindleEnabling]
  cases hack : inputs.ack (.spindle n) with
  | false =>
    cases hlate : (s.avail (.spindle n)).timedOut inputs.now with
    | true => exact fault_walked h (by decide)
    | false => exact same_walked (fun _ => hack) (by simp [hstate])
  | true =>
    cases hrequest : (s.pins (.spindle n)).request with
    | false => exact fault_walked h (by decide)
    | true =>
      refine ⟨.calm (.of_setAvail rfl rfl rfl rfl rfl rfl rfl rfl fun _ _ => rfl)
        ⟨?_, ?_, ?_, ?_, ?_, ?_, ?_⟩, fun h hinv => .inr ?_⟩
      iterate 7 simp [setAvail, Lingers, hstate, hack]
      have htarget : (s.avail (.spindle n)).targetAvailable = true := hinv.active (.inl hstate)
      simp only [Bool.not_true, Bool.and_false, Bool.false_eq_true, if_false, if_true, avail_setAvail]
      exact .of_entered h rfl htarget htarget hrequest hack (by simp) (by simp)

theorem examineSpindle_walked (s : Availability D) (n : ℕ) :
    Walked size inputs (.spindle n) s (s.fails inputs (.spindle n)) (s.examineSpindle size inputs n) := by
  cases h : (s.avail (.spindle n)).controlled with
  | false =>
    rw [fails, h, examineSpindle, if_pos (by simp [h])]
    exact free_walked h
  | true =>
    simp only [fails, examineSpindle, h, Bool.true_and, Bool.not_true, Bool.false_eq_true, if_false]
    cases hstate : (s.avail (.spindle n)).state with
    | disabled =>
      simp only [spindleFails, hstate]
      cases hack : inputs.ack (.spindle n) with
      | true => exact fault_walked h (by decide)
      | false => exact same_walked (by simp [hstate]) (by simp [hstate])
    | enabling => exact spindleEnabling_walked h hstate
    | homing =>
      simp only [spindleFails, hstate]
      exact fault_walked h (by decide)
    | available =>
      simp only [spindleFails, hstate]
      cases hack : inputs.ack (.spindle n) with
      | true => exact same_walked (by simp [hstate]) fun _ => ⟨hack, by simp⟩
      | false => exact fault_walked h (by decide)
    | disabling =>
      simp only [spindleFails, hstate]
      refine releaseEnd_walked (.refl hstate (by simp [Resource.isJoint])) ?_ _
      rintro ⟨-, hack | ⟨-, n', hn', -⟩⟩
      · exact hack
      · cases hn'
    | fault =>
      simp only [spindleFails, hstate]
      exact same_walked (by simp [hstate]) (by simp [hstate])

end Availability

end LinuxcncCtrl
