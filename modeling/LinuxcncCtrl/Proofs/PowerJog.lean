import LinuxcncCtrl.Spec.PowerJog

/-! A power jog needs a fresh press. Only a request without a direction re-arms a jog that has left its held
phase, and only a jog at rest is pressed again, whatever the planner does. -/

namespace LinuxcncCtrl

open Lib JogDouble CDouble

variable {D : Type}

namespace PowerJog

@[simp]
theorem rest_ne_held (p : Prop) [Decidable p] : (if p then PowerJogPhase.idle else .waitRelease) ≠ .held := by
  split <;> decide

@[simp]
theorem rest_ne_stopping (p : Prop) [Decidable p] :
    (if p then PowerJogPhase.idle else .waitRelease) ≠ .stopping := by
  split <;> decide

/-- A jog that reserves no axis has come to rest. -/
def Rested (jog : PowerJog D) : Prop := jog.reserved = false → jog.path.active = false

/-- What everything but a press keeps: only a held jog enables its path. -/
structure Holds (jog jog' : PowerJog D) : Prop where
  press : (jog'.feed, jog'.spindle, jog'.slope) = (jog.feed, jog.spindle, jog.slope)
  held : jog'.phase = .held → jog.phase = .held
  idle : jog'.phase = .idle → jog.phase = .idle ∨ jog.phase = .stopping ∧ jog.neutralSeen = true
  stopping : jog'.phase = .stopping → jog'.neutralSeen = true → jog.phase = .stopping ∧ jog.neutralSeen = true
  enable : jog'.path.enable = true → jog.path.enable = true ∨ jog.phase = .held
  rested : jog.Rested → jog'.Rested

variable {jog jog' jog'' : PowerJog D}

theorem Rested.of_reserved (h : jog.reserved = true) : jog.Rested := fun hfree => by simp [h] at hfree

theorem Holds.trans (h : Holds jog jog') (h' : Holds jog' jog'') : Holds jog jog'' where
  press := h'.press.trans h.press
  held := h.held ∘ h'.held
  idle hidle := (h'.idle hidle).elim h.idle fun hstopping => .inr (h.stopping hstopping.1 hstopping.2)
  stopping hphase hseen := (h'.stopping hphase hseen).elim h.stopping
  enable henable := (h'.enable henable).elim h.enable (.inr ∘ h.held)
  rested := h'.rested ∘ h.rested

/-- Only the path differs, and perhaps where the jog goes. -/
theorem Holds.path {path : ScalarPath D} {running : ℤ × ℤ} {origin direction : Fin 2 → D}
    (henable : path.enable = true → jog.path.enable = true ∨ jog.phase = .held)
    (hrested : jog.reserved = true ∨ path.active = jog.path.active) :
    Holds jog { jog with path, running, origin, direction } where
  press := rfl
  held := id
  idle := .inl
  stopping := And.intro
  enable := henable
  rested h hfree := by
    rcases hrested with hreserved | hactive
    · exact absurd (hreserved.symm.trans hfree) (by decide)
    · exact hactive.trans (h hfree)

theorem Holds.refl : Holds jog jog := .path .inl (.inr rfl)

variable [JogDouble D] {axes : Fin 2 → PowerJogAxis D} {inputs : PowerJogInputs D} {path : ScalarPath D}

theorem abort_holds (immediate : Bool) : Holds jog (jog.abort immediate) := by
  unfold abort
  split
  · exact .refl
  next hreserved =>
    refine ⟨rfl, ?_, ?_, ?_, ?_, ?_⟩ <;> cases hphase : jog.phase <;> cases immediate <;>
      simp_all [Rested, reserved, ScalarPath.setPos]

theorem plan_holds (hreserved : jog.reserved = true) (henable : path.enable = jog.path.enable) :
    Holds jog (jog.plan inputs path) := by
  have hpath : ∀ path' : ScalarPath D, path'.enable = path.enable → Holds jog { jog with path := path' } :=
    fun path' h => .path (fun hon => .inl (henable ▸ h ▸ hon)) (.inl hreserved)
  unfold plan
  split_ifs
  · split
    · exact (hpath path rfl).trans (abort_holds true)
    · exact hpath _ rfl
  · exact hpath _ rfl

theorem clamped_holds {previous target : D} : Holds jog (jog.clamped previous target) := by
  unfold clamped
  split
  · refine Holds.trans ?_ (abort_holds true)
    exact .path .inl (.inr rfl)
  · exact .refl

theorem finished_holds {acceleration period : D} : Holds jog (jog.finished acceleration period) := by
  unfold finished
  split
  next hdone =>
    refine ⟨rfl, ?_, ?_, ?_, .inl, fun _ _ => by simpa using hdone.1⟩ <;> simp +contextual
  · exact .refl

theorem advanced_holds {velocity acceleration : D} (hreserved : jog.reserved = true) :
    Holds jog (jog.advanced axes inputs velocity acceleration).1 := by
  unfold advanced
  refine Holds.trans ?_ (clamped_holds.trans finished_holds)
  split
  · exact plan_holds hreserved rfl
  · refine (abort_holds false).trans (plan_holds ?_ rfl)
    cases hphase : jog.phase <;> simp_all [abort, reserved]

/-- A path begins only for a held request. -/
theorem begun_holds : Holds jog (jog.begun axes) := by
  have hbegins : jog.phase = .held → jog.reserved = true := fun h => by simp [reserved, h]
  unfold begun
  dsimp only
  split_ifs with hstops hheld hheld
  · exact .path (fun _ => .inr hheld.2.2) (.inl (hbegins hheld.2.2))
  · exact .path nofun (.inr rfl)
  · exact .path (fun _ => .inr hheld.2.2) (.inl (hbegins hheld.2.2))
  · exact .path .inl (.inr rfl)

theorem update_holds : Holds jog (jog.update axes inputs).1 := by
  have hphase : (jog.begun axes).phase = jog.phase := by
    unfold begun
    dsimp only
    split_ifs <;> rfl
  unfold update
  split
  · exact .refl
  next hreserved =>
    split
    next hreleased =>
      refine ⟨rfl, ?_, ?_, ?_, nofun, fun _ _ => rfl⟩ <;> simp +contextual [hreleased.1]
    · dsimp only
      split
      · exact begun_holds.trans (abort_holds true)
      · refine begun_holds.trans (advanced_holds ?_)
        simpa [reserved, hphase, or_iff_not_imp_left] using hreserved

/-- What an accepted request does: it lets the jog go, presses an idle one, or turns a held one. -/
inductive Requested (jog : PowerJog D) (x z : ℤ) (feed : D) (spindle : ℤ) (slope : D) : PowerJog D → Prop
  | released (jog' : PowerJog D) (hneutral : (x, z) = (0, 0)) (hphase : jog'.phase ≠ .held)
      (henable : jog'.path.enable = true → jog.path.enable = true) (hrested : jog.Rested → jog'.Rested) :
      Requested jog x z feed spindle slope jog'
  | pressed (hidle : jog.phase = .idle) (path : ScalarPath D) (henable : path.enable = false) :
      Requested jog x z feed spindle slope
        { jog with
          feed, slope, spindle, path
          running := (0, 0)
          phase := .held
          neutralSeen := false
          requested := (x, z) }
  | turned (hheld : jog.phase = .held) :
      Requested jog x z feed spindle slope { jog with requested := (x, z) }

theorem request_spec {x z spindle : ℤ} {feed slope : D} (h : jog.request x z feed spindle slope = some jog') :
    Requested jog x z feed spindle slope jog' := by
  unfold request at h
  split at h
  next hneutral =>
    cases h
    have hneutral : (x, z) = (0, 0) := Prod.ext hneutral.1 hneutral.2
    cases hphase : jog.phase with
    | held => refine .released _ hneutral ?_ ?_ ?_ <;> simp [abort, reserved, Rested, hphase]
    | idle => refine .released _ hneutral ?_ ?_ ?_ <;> simp [reserved, Rested, hphase]
    | stopping => refine .released _ hneutral ?_ ?_ ?_ <;> simp [reserved, Rested, hphase]
    | waitRelease => refine .released _ hneutral ?_ ?_ ?_ <;> simp [reserved, Rested, hphase]
  next hdirection =>
    obtain ⟨-, h⟩ := Option.ite_none_left_eq_some.mp h
    obtain ⟨hphase, h⟩ := Option.ite_none_left_eq_some.mp h
    split at h
    next hidle =>
      obtain ⟨-, ⟨⟩⟩ := Option.ite_none_left_eq_some.mp h
      exact .pressed hidle _ rfl
    next hidle =>
      cases h
      exact .turned (by simp_all)

end PowerJog

namespace LatheJog

open PowerJog

variable {s s' : LatheJog D}

/-- An idle jog is at rest and has seen the neutral request since it was held. -/
structure Armed (s : LatheJog D) : Prop where
  rested : s.jog.Rested
  idle : s.jog.phase = .idle → s.waiting = false
  stopping : s.jog.phase = .stopping → s.jog.neutralSeen = true → s.waiting = false
  press : s.jog.phase = .held → (s.jog.feed, s.jog.spindle, s.jog.slope) = s.press

/-- A step that presses needs an armed jog; a step that enables the path, a held one. -/
def Presses (s : LatheJog D) (jog' : PowerJog D) : Prop :=
  (s.jog.phase ≠ .held → jog'.phase = .held → s.waiting = false ∧ s.jog.path.active = false) ∧
    (s.jog.path.enable = false → jog'.path.enable = true → s.jog.phase = .held)

theorem Armed.holds {jog' : PowerJog D} {position : Fin 2 → D} (h : s.Armed) (hholds : Holds s.jog jog') :
    Armed { s with jog := jog', position, waiting := s.left jog' } ∧ s.Presses jog' := by
  refine ⟨⟨hholds.rested h.rested, fun hidle => ?_, fun hstopping hseen => ?_, fun hheld => ?_⟩,
    fun hphase hheld => absurd (hholds.held hheld) hphase, fun hoff hon => ?_⟩
  · rcases hholds.idle hidle with hphase | ⟨hphase, hseen⟩
    · simp [left, hphase, h.idle hphase]
    · simp [left, hphase, h.stopping hphase hseen]
  · obtain ⟨hphase, hseen⟩ := hholds.stopping hstopping hseen
    simp [left, hphase, h.stopping hphase hseen]
  · exact hholds.press.trans (h.press (hholds.held hheld))
  · exact (hholds.enable hon).resolve_left (by simp [hoff])

variable [JogDouble D] {a : Action D}

theorem Armed.step (hstep : s.step a = some s') (h : s.Armed) : s'.Armed ∧ s.Presses s'.jog := by
  cases a with
  | request x z feed spindle slope =>
    simp only [LatheJog.step] at hstep
    split at hstep
    · cases hstep
      exact ⟨h, fun hphase hheld => absurd hheld hphase, fun hoff hon => absurd hon (by simp [hoff])⟩
    next jog hrequest =>
      cases hstep
      cases request_spec hrequest with
      | released _ hneutral hphase henable hrested =>
        exact ⟨⟨hrested h.rested, by simp [hneutral], by simp [hneutral], fun hheld => absurd hheld hphase⟩,
          fun _ hheld => absurd hheld hphase, fun hoff hon => absurd (henable hon) (by simp [hoff])⟩
      | pressed hidle path henable =>
        exact ⟨⟨.of_reserved rfl, nofun, nofun, fun _ => by simp [hidle]⟩,
          fun _ _ => ⟨h.idle hidle, h.rested (by simp [reserved, hidle])⟩, fun _ hon => by simp [henable] at hon⟩
      | turned hheld =>
        exact ⟨⟨h.rested, by simp [hheld], by simp [hheld], fun _ => by simpa [hheld] using h.press hheld⟩,
          fun hphase => absurd hheld hphase, fun _ _ => hheld⟩
  | abort immediate =>
    cases hstep
    exact h.holds (abort_holds immediate)
  | update limits inputs =>
    cases hstep
    exact h.holds update_holds
  | move position =>
    obtain ⟨-, ⟨⟩⟩ := Option.ite_none_left_eq_some.mp hstep
    exact ⟨{ h with }, fun hphase hheld => absurd hheld hphase, fun hoff hon => absurd hon (by simp [hoff])⟩

variable {position : Fin 2 → D} {actions : List (Action D)}

theorem armed_of_run (hrun : Run step (initial position) actions s) : s.Armed := by
  apply hrun.invariant
  · exact ⟨fun _ => rfl, fun _ => rfl, nofun, nofun⟩
  · intro s a s' hstep h
    exact (h.step hstep).1

/-- A jog is held again only by a press of a jog at rest that has seen a neutral request since it was held; only
a held jog enables its path; and a held jog keeps feed, spindle and slope of its press. -/
theorem fresh_press (hrun : Run step (initial position) actions s) (hstep : s.step a = some s') :
    (s.jog.phase ≠ .held → s'.jog.phase = .held → s.waiting = false ∧ s.jog.path.active = false) ∧
    (s.jog.path.enable = false → s'.jog.path.enable = true → s.jog.phase = .held) ∧
    (s'.jog.phase = .held → (s'.jog.feed, s'.jog.spindle, s'.jog.slope) = s'.press) := by
  obtain ⟨harmed, hpress, henable⟩ := (armed_of_run hrun).step hstep
  exact ⟨hpress, henable, harmed.press⟩

local instance wholeJog : JogDouble ℤ where
  fabs := abs
  isfinite _ := true
  decidableLE := inferInstance
  sqrt _ := 1
  fmin := min
  fmax := max
  ofInt := id
  dblMax := 1000
  smallest := 1
  leastJerk := 1
  tinyDp _ _ := 0
  decidableLT := inferInstance

/-- A planner that moves the path to `position`. -/
def moves (position : ℤ) (active : Bool) : Action ℤ :=
  .update (fun _ => ⟨0, -5, 5, 1, 1, 1⟩)
    ⟨1, 1, 1, false, fun _ => none, fun path => { path.toFreeTp with currPos := position, active }⟩

/-- Pressed, released and at rest. -/
def released : LatheJog ℤ :=
  (exec step (initial 0) [.request 1 0 1 0 0, moves 2 true, .request 0 0 0 0 0, moves 3 false]).getD (initial 0)

theorem fresh_press_again : released.jog.phase = .idle ∧ released.waiting = false ∧
    released.jog.path.active = false := by
  have hrun : Run step (initial 0) _ released := Run.getD_exec (by decide +kernel)
  have hstep : released.step (.request 0 1 1 0 0) = some _ := (Option.some_get (by decide +kernel)).symm
  exact ⟨by decide +kernel, (fresh_press hrun hstep).1 (by decide +kernel) (by decide +kernel)⟩

/-- X and Z are given up only when the jog's path has come to rest. -/
theorem given_up_at_rest (hrun : Run step (initial position) actions s) (hfree : s.jog.reserved = false) :
    s.jog.path.active = false :=
  (armed_of_run hrun).rested hfree

theorem given_up_at_rest_released : released.jog.path.active = false :=
  given_up_at_rest (Run.getD_exec (by decide +kernel)) (by decide +kernel)

end LatheJog

end LinuxcncCtrl
