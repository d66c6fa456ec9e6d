import LinuxcncCtrl.Sanity.AvailabilityLoops

/-! A call of `process_availability` as one resource sees it. Its own iteration moves it or takes it down;
before and after it the resource is left as it was, dropped, or begun by Machine On. -/

namespace LinuxcncCtrl

variable {D : Type} {n : ℕ} {r : Resource}

namespace AvailabilityStatus

variable {a : AvailabilityStatus D}

theorem Ordered.joint (h : a.Ordered (.joint n)) (hcontrolled : a.controlled = true) :
    a.Inv (.joint n) (Availability.jointRequest a) := by
  refine ⟨h, fun hstate => ?_, ?_⟩
  · have htarget := h.active (.inr hstate)
    rcases hstate with hstate | hstate <;> simp [Availability.jointRequest, hcontrolled, htarget, hstate]
  · rintro (hstate | hstate | ⟨hstate, htarget⟩)
    · obtain ⟨htarget, hphase⟩ := h.resting (.inl hstate)
      simp [Availability.jointRequest, htarget, hphase rfl]
    · obtain ⟨htarget, hphase⟩ := h.resting (.inr hstate)
      simp [Availability.jointRequest, htarget, hphase rfl]
    · simp [Availability.jointRequest, hstate, h.releasing hstate htarget rfl]

theorem Ordered.spindle (h : a.Ordered (.spindle n)) (hcontrolled : a.controlled = true) :
    a.Inv (.spindle n) (Availability.spindleRequest a) := by
  refine ⟨h, ?_, ?_⟩
  · rintro (hstate | hstate)
    · exact absurd (h.homing hstate) Bool.false_ne_true
    · simp [Availability.spindleRequest, hcontrolled, h.active (.inr (.inr hstate)), hstate]
  · rintro (hstate | hstate | ⟨hstate, -⟩) <;> simp [Availability.spindleRequest, hstate]

/-- What is requested and to become available is on its way or there. -/
theorem Inv.requested (h : a.Inv r true) (htarget : a.targetAvailable = true) :
    a.state = .enabling ∨ a.state = .homing ∨ a.state = .available := by
  cases hstate : a.state with
  | enabling => exact .inl rfl
  | homing => exact .inr (.inl rfl)
  | available => exact .inr (.inr rfl)
  | disabled => exact absurd (h.low (.inl hstate)) (by decide)
  | fault => exact absurd (h.low (.inr (.inl hstate))) (by decide)
  | disabling => exact absurd (h.low (.inr (.inr ⟨hstate, htarget⟩))) (by decide)

end AvailabilityStatus

namespace Availability

variable {s s' s'' : Availability D} {size : MachineSize} {inputs : AvailabilityInputs D}

def Inv (s : Availability D) : Prop :=
  ∀ r, (s.avail r).controlled = true → (s.avail r).Inv r (s.pins r).request

theorem inv_configured (h : s.Configured) : s.Inv := by
  intro r hr
  refine ⟨?_, ?_, fun _ => h.request r⟩
  · constructor <;> simp [h.state r hr, h.target r hr, h.phase r hr]
  · simp [h.state r hr]

/-- A resource at rest that the step begins to acquire. -/
structure Begun (s s' : Availability D) (r : Resource) : Prop where
  rest : (s.avail r).state = .disabled ∨ (s.avail r).state = .fault
  record : ∃ runtime etime, (r.isJoint = true → runtime = true) ∧
    s'.avail r = (s.avail r).availabilityBegin runtime etime
  pins : s'.pins r = s.pins r

def Kept (s s' : Availability D) (r : Resource) : Prop := Eased s s' r ∨ Begun s s' r

/-- What a step may do to `r` other than its own iteration. -/
inductive Passive (s s' : Availability D) (r : Resource) : Prop
  | kept (h : Kept s s' r)
  | settling (hcontrolled : (s'.avail r).controlled = (s.avail r).controlled)
      (hstate : (s'.avail r).state = .disabling) (htarget : (s'.avail r).targetAvailable = false)

theorem Eased.kept (h : Eased s s' r) (h' : Kept s' s'' r) : Kept s s'' r := by
  rcases h' with heased | hbegun
  · exact .inl (h.trans heased)
  · rcases h with ⟨havail, hpins⟩ | ⟨-, hdown, -⟩
    · obtain ⟨hrest, hrecord, hsame⟩ := hbegun
      rw [havail] at hrest hrecord
      exact .inr ⟨hrest, hrecord, hsame.trans hpins⟩
    · have hrest := hbegun.rest
      simp [hdown.state] at hrest

theorem Passive.controlled (h : Passive s s' r) : (s'.avail r).controlled = (s.avail r).controlled := by
  rcases h with (heased | hbegun) | ⟨hsame, -, -⟩
  · exact heased.controlled
  · obtain ⟨runtime, etime, -, havail⟩ := hbegun.record
    rw [havail]
    rfl
  · exact hsame

theorem Passive.of_eq (h : Passive s' s'' r) (havail : s'.avail r = s.avail r) (hpins : s'.pins r = s.pins r) :
    Passive s s'' r := by
  rcases h with h | ⟨hcontrolled, hstate, htarget⟩
  · exact .kept (Eased.kept (.inl ⟨havail, hpins⟩) h)
  · exact .settling (havail ▸ hcontrolled) hstate htarget

theorem Begun.inv (h : Begun s s' r) (hinv : (s.avail r).Inv r (s.pins r).request) :
    (s'.avail r).Inv r (s'.pins r).request := by
  obtain ⟨runtime, etime, hruntime, havail⟩ := h.record
  have hlow : (s.pins r).request = false := hinv.low (by simpa [or_assoc] using h.rest.imp_right .inl)
  rw [havail, h.pins, hlow]
  rcases h.rest with hstate | hstate
  all_goals
    refine ⟨?_, ?_, fun _ => rfl⟩
    · constructor <;> simp [AvailabilityStatus.availabilityBegin, hstate]
      exact hruntime
    · simp [AvailabilityStatus.availabilityBegin, hstate]

theorem Passive.inv (h : Passive s s' r) (hinv : (s.avail r).Inv r (s.pins r).request) :
    (s'.avail r).Inv r (s'.pins r).request := by
  rcases h with (heased | hbegun) | ⟨-, hstate, htarget⟩
  · exact heased.inv hinv
  · exact hbegun.inv hinv
  · refine ⟨?_, ?_, ?_⟩
    · constructor <;> simp [hstate, htarget]
    all_goals simp [hstate, htarget]

/-- Such a step raises no request; what it leaves requested, homing or available, it has left alone. -/
theorem Passive.same (h : Passive s s' r) (hinv : (s.avail r).Inv r (s.pins r).request)
    (hactive : (s'.pins r).request = true ∧ (s'.avail r).targetAvailable = true ∨
      (s'.avail r).state = .homing ∨ (s'.avail r).state = .available) :
    s'.avail r = s.avail r ∧ s'.pins r = s.pins r := by
  rcases h with ((hsame | ⟨-, hdown, -⟩) | hbegun) | ⟨-, hstate, htarget⟩
  · exact hsame
  · simp [hdown.request, hdown.state] at hactive
  · obtain ⟨runtime, etime, -, havail⟩ := hbegun.record
    have hlow : (s.pins r).request = false := hinv.low (by simpa [or_assoc] using hbegun.rest.imp_right .inl)
    rcases hbegun.rest with hstate | hstate <;>
      simp [hbegun.pins, hlow, havail, AvailabilityStatus.availabilityBegin, hstate] at hactive
  · simp [hstate, htarget] at hactive

theorem atRest_acquire {a : AvailabilityStatus D} (hrest : atRest a = true)
    (hsame : satisfied a true = false) : a.state = .disabled ∨ a.state = .fault := by
  simp only [atRest, satisfied, if_true, Bool.and_eq_true, Bool.or_eq_true, decide_eq_true_eq,
    decide_eq_false_iff_not] at hrest hsame
  rcases hrest.2 with (h | h) | h
  · exact .inl h
  · exact absurd h hsame
  · exact .inr h

variable [CDouble D]

/-- What the iteration for a controlled `r` leaves. -/
structure Iterated (inputs : AvailabilityInputs D) (r : Resource) (s s' : Availability D) : Prop where
  inv : (s'.avail r).Inv r (s'.pins r).request
  outcome : (∃ fault, fault ≠ .none ∧ s'.Down r fault) ∨ Moves inputs r s (s'.avail r)

/-- The shape of both loop bodies: examine, write the pins. -/
theorem iterated {request : AvailabilityStatus D → Bool} (hcontrolled : (s.avail r).controlled = true)
    (hinv : (s.avail r).Inv r (s.pins r).request) (hexamined : Examined inputs r s s')
    (hwrite : ∀ a : AvailabilityStatus D, a.Ordered r → a.controlled = true → a.Inv r (request a))
    (hlower : ∀ a, a.targetAvailable = false → a.phase ≠ .waitSettled → request a = false) :
    Iterated inputs r s (s'.writePins r (request (s'.avail r))) := by
  have hrequest : ((s'.writePins r (request (s'.avail r))).pins r).request = request (s'.avail r) := by
    simp [writePins]
  have hwritten : (s'.avail r).Ordered r → (s'.avail r).controlled = true →
      (s'.avail r).Inv r ((s'.writePins r (request (s'.avail r))).pins r).request := by
    rw [hrequest]
    exact hwrite _
  rcases hexamined hcontrolled hinv with ⟨fault, hfault, hdown⟩ | hmoves
  · refine ⟨hwritten hdown.ordered hdown.controlled, .inl ⟨fault, hfault, { hdown with request := ?_ }⟩⟩
    exact hrequest.trans (hlower _ hdown.target hdown.phase)
  · exact ⟨hwritten hmoves.ordered hmoves.controlled, .inr hmoves⟩

theorem processResource_iterated (hr : (s.avail r).controlled = true)
    (hinv : (s.avail r).Inv r (s.pins r).request) : Iterated inputs r s (processResource size inputs s r) := by
  cases r with
  | joint n =>
    refine iterated hr hinv (examineJoint_walked s n).2 (fun a => AvailabilityStatus.Ordered.joint)
      fun a htarget hphase => ?_
    simp [jointRequest, htarget, hphase]
  | spindle n =>
    refine iterated hr hinv (examineSpindle_walked s n).2 (fun a => AvailabilityStatus.Ordered.spindle)
      fun a htarget _ => ?_
    simp [spindleRequest, htarget]

theorem processResource_inv (hinv : s.Inv) (r : Resource) : (processResource size inputs s r).Inv := by
  intro r' hr'
  have hturned : Turned size inputs r s _ := processResource_turned s r
  by_cases hr : r' = r
  · subst hr
    exact (processResource_iterated (hturned.controlled ▸ hr') (hinv r' (hturned.controlled ▸ hr'))).inv
  · have heased := hturned.others r' hr
    exact heased.inv (hinv r' (heased.controlled ▸ hr'))

theorem foldl_inv (hinv : s.Inv) (l : List Resource) : (l.foldl (processResource size inputs) s).Inv := by
  induction l generalizing s with
  | nil => exact hinv
  | cons r l ih => exact ih (processResource_inv hinv r)

theorem foldl_eased {l : List Resource} (hr : r ∉ l) (s : Availability D) :
    Eased s (l.foldl (processResource size inputs) s) r :=
  eased_foldl (fun s r' hr' => (processResource_turned s r').others r fun heq => hr (heq ▸ hr')) s

theorem checkEnable_eased (s : Availability D) (r : Resource) : Eased s (s.checkEnable size inputs) r := by
  simp only [checkEnable]
  split_ifs
  · exact availabilityCancel_eased size s true _ r
  · exact .refl s r

theorem machineOn_cases (s : Availability D) (r : Resource) :
    Eased s (s.machineOn size inputs) r ∨
      Begun s (s.machineOn size inputs) r ∧ (s.avail r).controlled = true ∧ (s.avail r).state = .disabled := by
  obtain ⟨k, hscanned, -⟩ : ∃ k, Scanned inputs s _ k _ ∧ _ :=
    scanSpindles_scanned s (size.spindles - s.availabilityResource)
  simp only [machineOn]
  generalize scanSpindles inputs s (size.spindles - s.availabilityResource) = t at hscanned ⊢
  have ht : Eased s t r ∨ Begun s t r ∧ (s.avail r).controlled = true ∧ (s.avail r).state = .disabled := by
    cases hscanned with
    | through => exact .inl (.inl ⟨rfl, rfl⟩)
    | stopped => exact .inl (.inl ⟨rfl, rfl⟩)
    | begun _ hcontrolled hstate _ =>
      by_cases hr : r = .spindle (s.availabilityResource + k)
      · subst hr
        refine .inr ⟨⟨.inl hstate, ⟨false, inputs.stamp, ?_, avail_setAvail _ _ _⟩, rfl⟩, hcontrolled, hstate⟩
        simp [Resource.isJoint]
      · exact .inl (.inl ⟨Function.update_of_ne hr _ _, rfl⟩)
  split_ifs with hoff hfaulted hend henable
  · exact .inl (.refl s r)
  · exact .inl (availabilityCancel_eased size s true _ r)
  · exact ht.imp (fun h => h.trans (.inl ⟨rfl, rfl⟩)) fun h => ⟨⟨h.1.rest, h.1.record, h.1.pins⟩, h.2⟩
  · cases hscanned with
    | through =>
      exact .inl (.trans (.inl ⟨rfl, rfl⟩) (availabilityCancel_eased size _ true _ r))
    | stopped hk => exact absurd hend (by dsimp only; omega)
    | begun hk => exact absurd hend (by dsimp only [availabilityBegin, setAvail]; omega)
  · exact ht

theorem machineOn_kept (s : Availability D) (r : Resource) : Kept s (s.machineOn size inputs) r :=
  (machineOn_cases s r).imp_right And.left

theorem takeWhile_ne {l : List Resource} (hr : r ∈ l) : ∃ after, l = l.takeWhile (· ≠ r) ++ r :: after := by
  induction l with
  | nil => cases hr
  | cons r' l ih =>
    by_cases heq : r' = r
    · exact ⟨l, by simp [heq]⟩
    · obtain ⟨after, hafter⟩ := ih (List.mem_of_ne_of_mem (Ne.symm heq) hr)
      refine ⟨after, ?_⟩
      rw [List.takeWhile_cons_of_pos (by simpa using heq), List.cons_append, ← hafter]

/-- A call as `r` sees it: what comes before its iteration, and what comes after it. -/
theorem processAvailability_parts (s : Availability D) (hr : r ∈ size.order) :
    Eased s (s.reached size inputs r) r ∧
      Kept (processResource size inputs (s.reached size inputs r) r) (s.processAvailability size inputs) r := by
  obtain ⟨after, horder⟩ := takeWhile_ne hr
  have hnodup := order_nodup size
  rw [horder] at hnodup
  obtain ⟨-, hafter, hdisjoint⟩ := List.nodup_append.mp hnodup
  refine ⟨(checkEnable_eased s r).trans (foldl_eased (fun hmem => ?_) _), ?_⟩
  · exact hdisjoint r hmem r List.mem_cons_self rfl
  · rw [processAvailability_eq, horder, List.foldl_append, List.foldl_cons]
    exact (foldl_eased (List.nodup_cons.mp hafter).1 _).kept (machineOn_kept _ r)

theorem reached_inv (hinv : s.Inv) (r : Resource) : (s.reached size inputs r).Inv := by
  refine foldl_inv (fun r' hr' => ?_) _
  have heased : Eased s (s.checkEnable size inputs) r' := checkEnable_eased s r'
  exact heased.inv (hinv r' (heased.controlled ▸ hr'))

end Availability

end LinuxcncCtrl
