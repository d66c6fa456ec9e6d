import LinuxcncCtrl.Proofs.PowerFeed
import LinuxcncCtrl.Proofs.PowerJog

/-! From the buttons to the jog. Commands reach motion late but in order, so once the buttons are released and
nothing is on its way, motion no longer holds the jog. -/

namespace LinuxcncCtrl.PowerFeedSystem

open Lib PowerJog PowerFeedRun

variable {D : Type} {s s₁ s₂ : PowerFeedSystem D} {a : Action D} {inputs : PowerFeedInputs D}

/-- What an update of the buttons without a direction sends is accepted. -/
def Action.Accepted : Action D → Prop
  | .buttons inputs => AcceptsNeutral inputs
  | _ => True

/-- Not an update of the buttons. -/
def Action.OfMotion : Action D → Prop
  | .buttons _ => False
  | _ => True

theorem Action.OfMotion.accepted (h : a.OfMotion) : a.Accepted := by
  cases a with
  | buttons => exact h.elim
  | _ => exact trivial

/-- If the class remembers no direction, the last command on its way has none, or motion does not hold the jog. -/
def Follows (s : PowerFeedSystem D) : Prop :=
  s.feed.previous = (0, 0) → (∀ command ∈ s.pending.getLast?, command.direction = (0, 0)) ∧
    (s.pending = [] → s.jog.phase ≠ .held)

theorem Follows.jog {jog : PowerJog D} (hholds : Holds s.jog jog) (h : s.Follows) :
    Follows { s with jog } := by
  intro hprevious
  obtain ⟨hlast, hempty⟩ := h hprevious
  exact ⟨hlast, fun hnone hheld => hempty hnone (hholds.held hheld)⟩

variable [JogDouble D]

theorem jogPower_neutral {jog : PowerJog D} {inputs : JogPowerInputs} {command : JogPowerCommand D}
    (h : command.direction = (0, 0)) : ((jog.jogPower inputs command).getD jog).phase ≠ .held := by
  cases hphase : jog.phase <;> simp [jogPower, h, request, abort, reserved, hphase]

theorem Follows.step (hok : a.Accepted) (hstep : s.step a = some s₁) (h : s.Follows) : s₁.Follows := by
  cases a with
  | buttons inputs =>
    cases hstep
    intro hprevious
    rw [update_previous] at hprevious
    by_cases hsame : s.feed.previous = (0, 0)
    · simpa [HaluiPowerFeed.sends, hprevious, hsame] using h hsame
    · have haccepted : inputs.accepts (s.feed.command inputs) = true := by
        rw [HaluiPowerFeed.command, hprevious]
        exact hok
      have hcommand : (s.feed.command inputs).direction = (0, 0) := hprevious
      simp [HaluiPowerFeed.sends, hprevious, Ne.symm hsame, Option.filter_some, haccepted, hcommand]
  | deliver inputs =>
    simp only [PowerFeedSystem.step] at hstep
    split at hstep
    · cases hstep
    next command pending hpending =>
      cases hstep
      intro hprevious
      obtain ⟨hlast, -⟩ := h hprevious
      rw [hpending] at hlast
      cases pending with
      | nil => exact ⟨by simp, fun _ => jogPower_neutral (hlast command rfl)⟩
      | cons next rest => exact ⟨by simpa using hlast, by simp⟩
  | abort immediate =>
    cases hstep
    exact h.jog (abort_holds immediate)
  | update axes inputs =>
    cases hstep
    exact h.jog update_holds

theorem step_feed (hok : a.OfMotion) (hstep : s.step a = some s₁) : s₁.feed = s.feed := by
  cases a with
  | buttons => exact hok.elim
  | deliver inputs =>
    simp only [PowerFeedSystem.step] at hstep
    split at hstep <;> cases hstep
    rfl
  | abort | update =>
    cases hstep
    rfl

/-- Where every command without a direction is accepted: once the buttons are released, whatever motion does
until all commands have reached it, it does not hold the jog then. -/
theorem released_lets_go {actions later : List (Action D)}
    (hrun : RunWhere step (fun _ => Action.Accepted) initial actions s)
    (hstep : s.step (.buttons inputs) = some s₁) (hok : AcceptsNeutral inputs)
    (hreleased : inputs.pins.held = false ∨ inputs.permitted = false)
    (hlater : RunWhere step (fun _ => Action.OfMotion) s₁ later s₂)
    (hdelivered : s₂.pending = []) : s₂.jog.phase ≠ .held := by
  have hfollows : s.Follows := by
    apply hrun.invariant
    · exact fun _ => ⟨by simp [initial], fun _ => by simp [initial, LatheJog.initial]⟩
    · exact fun s a s' hok hstep h => h.step hok hstep
  have hquiet : s₁.feed.previous = (0, 0) := by
    cases hstep
    rw [update_previous]
    exact direction_quiet hreleased
  have hkept : s₂.Follows ∧ s₂.feed.previous = (0, 0) := by
    apply hlater.invariant
    · exact ⟨hfollows.step (a := .buttons inputs) hok hstep, hquiet⟩
    · rintro s a s' hmotion hstep ⟨h, hprevious⟩
      exact ⟨h.step hmotion.accepted hstep, by rw [step_feed hmotion hstep, hprevious]⟩
  exact (hkept.1 hkept.2).2 hdelivered

attribute [local instance] LatheJog.wholeJog

/-- The lever to X plus, and its command with motion. -/
def feeding : PowerFeedSystem ℤ :=
  (exec step initial [.buttons (lever true true), .deliver ⟨fun _ => true, false⟩]).getD initial

theorem released_lets_go_lever : feeding.jog.phase = .held ∧
    ((exec step feeding [.buttons (lever false true), .deliver ⟨fun _ => false, true⟩]).getD feeding).jog.phase ≠
      .held := by
  have hrun : RunWhere step (fun _ => Action.Accepted) initial
      [.buttons (lever true true), .deliver ⟨fun _ => true, false⟩] feeding :=
    .cons rfl rfl (.cons trivial rfl .nil)
  have hstep : feeding.step (.buttons (lever false true)) = some _ := rfl
  exact ⟨by decide +kernel, released_lets_go hrun hstep rfl (.inl rfl)
    (.cons (a := Action.deliver ⟨fun _ => false, true⟩) trivial rfl .nil) rfl⟩

end LinuxcncCtrl.PowerFeedSystem
