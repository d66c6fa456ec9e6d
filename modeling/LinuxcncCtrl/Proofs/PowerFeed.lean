import LinuxcncCtrl.Spec.PowerJog

/-! The power feed's buttons: a released lever stops the feed unless the channel refuses the command without a
direction, and a barred press sends no direction. -/

namespace LinuxcncCtrl.PowerFeedRun

open Lib

variable {D : Type} [BEq D] {s s' : PowerFeedRun D} {inputs : PowerFeedInputs D}

/-- The channel accepts the command of this update that has no direction. -/
def AcceptsNeutral (inputs : PowerFeedInputs D) : Prop :=
  inputs.accepts ⟨(0, 0), inputs.pins.feed, inputs.pins.spindle, inputs.pins.slope⟩ = true

instance : Decidable (AcceptsNeutral inputs) := inferInstanceAs (Decidable (_ = _))

/-- Motion holds no direction. -/
def Stopped (s : PowerFeedRun D) : Prop := ∀ command ∈ s.received, command.direction = (0, 0)

theorem direction_quiet {feed : HaluiPowerFeed D} (h : inputs.pins.held = false ∨ inputs.permitted = false) :
    feed.direction inputs = (0, 0) := by
  obtain ⟨⟨xp, xm, zp, zm, _, _, _⟩, permitted, _⟩ := inputs
  unfold HaluiPowerFeed.direction
  rcases h with h | rfl
  · simp_all [PowerFeedPins.held, PowerFeedPins.direction]
  · rfl

theorem update_previous (feed : HaluiPowerFeed D) : (feed.update inputs).previous = feed.direction inputs := by
  unfold HaluiPowerFeed.update
  split <;> rfl

/-- What the class remembers without a direction, motion has received without one. -/
theorem Stopped.step (hok : AcceptsNeutral inputs) (hstep : s.step inputs = some s')
    (h : s.feed.previous = (0, 0) → s.Stopped) (hprevious : s'.feed.previous = (0, 0)) : s'.Stopped := by
  cases hstep
  rw [update_previous] at hprevious
  by_cases hsame : s.feed.previous = (0, 0)
  · simpa [Stopped, received, HaluiPowerFeed.sends, hprevious, hsame] using h hsame
  · have haccepted : inputs.accepts (s.feed.command inputs) = true := by
      rw [HaluiPowerFeed.command, hprevious]
      exact hok
    have hcommand : (s.feed.command inputs).direction = (0, 0) := hprevious
    simp [Stopped, received, HaluiPowerFeed.sends, hprevious, Ne.symm hsame, haccepted, hcommand]

/-- While the buttons stay held, a bar blocks; otherwise the class remembers slope and spindle. -/
structure Inv (s : PowerFeedRun D) : Prop where
  barred : s.barred = true → s.feed.blocked = true
  held : ∀ pins ∈ s.pins, pins.held = true → s.feed.blocked = true ∨
    s.feed.previous ≠ (0, 0) ∧ (s.feed.heldSlope = pins.slope ∨ (pins.slope == s.feed.heldSlope) = true) ∧
      s.feed.heldSpindle = pins.spindle
  sent : ∀ command ∈ s.sent, command.barred = true → command.direction = (0, 0)

/-- A button that is held feeds, unless it is blocked. -/
theorem direction_held {feed : HaluiPowerFeed D} (hheld : inputs.pins.held = true)
    (h : feed.blocks inputs = false) : feed.direction inputs ≠ (0, 0) := by
  obtain ⟨⟨xp, xm, zp, zm, _, _, _⟩, permitted, _⟩ := inputs
  simp only [HaluiPowerFeed.blocks, PowerFeedPins.held, PowerFeedPins.conflicts] at h hheld
  simp only [HaluiPowerFeed.direction, HaluiPowerFeed.blocks, PowerFeedPins.direction, PowerFeedPins.held,
    PowerFeedPins.conflicts]
  revert h hheld
  cases xp <;> cases xm <;> cases zp <;> cases zm <;> cases permitted <;> simp +contextual

theorem Inv.blocks [PartialEquivBEq D] (h : s.Inv) (hbars : s.bars inputs.pins = true) :
    s.feed.blocks inputs = true := by
  simp only [bars, Bool.and_eq_true, Bool.or_eq_true, Option.any_eq_true] at hbars
  obtain ⟨hheld, (hbarred | hconflicts) | ⟨last, hlast, hlastHeld, hchanged⟩⟩ := hbars
  · simp [HaluiPowerFeed.blocks, hheld, h.barred hbarred]
  · simp [HaluiPowerFeed.blocks, hheld, hconflicts]
  obtain hblocked | ⟨hprevious, hslope, hspindle⟩ := h.held last hlast hlastHeld
  · simp [HaluiPowerFeed.blocks, hheld, hblocked]
  have hne : (inputs.pins.slope != s.feed.heldSlope) = true ∨ inputs.pins.spindle ≠ s.feed.heldSpindle := by
    rcases hchanged with hchanged | hchanged
    · left
      rcases hslope with hslope | hslope
      · rwa [hslope]
      · rw [bne, Bool.not_eq_true'] at hchanged ⊢
        rwa [← BEq.congr_right hslope]
    · right
      rw [hspindle]
      simpa using hchanged
  simp [HaluiPowerFeed.blocks, hheld, hprevious, hne]

theorem Inv.step [PartialEquivBEq D] (hstep : s.step inputs = some s') (h : s.Inv) : s'.Inv := by
  cases hstep
  refine ⟨fun hbarred => ?_, ?_, ?_⟩
  · simp only [HaluiPowerFeed.update]
    split <;> simp [h.blocks hbarred]
  · rintro pins ⟨⟩ hheld
    by_cases hblocks : s.feed.blocks inputs = true
    · left
      simp only [HaluiPowerFeed.update]
      split <;> simp [hblocks]
    · right
      rw [Bool.not_eq_true] at hblocks
      rw [update_previous]
      refine ⟨direction_held hheld hblocks, ?_⟩
      simp only [HaluiPowerFeed.update, HaluiPowerFeed.sends]
      split_ifs with hsame
      · exact ⟨.inl rfl, rfl⟩
      · have hprevious : s.feed.previous ≠ (0, 0) := by
          rw [← not_not.mp hsame]
          exact direction_held hheld hblocks
        simp only [HaluiPowerFeed.blocks, hheld, Bool.true_and, Bool.or_eq_false_iff] at hblocks
        have hkept := hblocks.2
        rw [decide_eq_true hprevious, Bool.true_and, Bool.or_eq_false_iff] at hkept
        exact ⟨.inr (by simpa [bne] using hkept.1), (by simpa using hkept.2 : _ = _).symm⟩
  · intro command hcommand hbarred
    rcases List.mem_append.mp hcommand with hnew | hold
    · simp only [Option.mem_toList, Option.map_eq_some_iff] at hnew
      obtain ⟨command, hsends, rfl⟩ := hnew
      obtain ⟨-, ⟨⟩⟩ := Option.ite_none_right_eq_some.mp hsends
      simp [HaluiPowerFeed.command, HaluiPowerFeed.direction, h.blocks hbarred]
    · exact h.sent command hold hbarred

theorem inv_of_run [PartialEquivBEq D] [Zero D] {updates : List (PowerFeedInputs D)}
    (hrun : Run step initial updates s) : s.Inv := by
  apply hrun.invariant
  · exact ⟨nofun, nofun, nofun⟩
  · intro s inputs s' hstep h
    exact h.step hstep

/-- No button is held or feeding is not permitted, and the channel accepts every command. -/
def Quiet (inputs : PowerFeedInputs D) : Prop :=
  (inputs.pins.held = false ∨ inputs.permitted = false) ∧ ∀ command, inputs.accepts command = true

/-- No barred command has a direction. And where the channel accepts every command without a direction, quiet
updates leave motion without one. -/
theorem released_stops [PartialEquivBEq D] [Zero D] :
    (∀ updates (s : PowerFeedRun D), Run step initial updates s →
      ∀ command ∈ s.sent, command.barred = true → command.direction = (0, 0)) ∧
    ∀ earlier quiet (s s' : PowerFeedRun D),
      RunWhere step (fun _ => AcceptsNeutral) initial earlier s →
      RunWhere step (fun _ => Quiet) s quiet s' → quiet ≠ [] → s'.Stopped := by
  refine ⟨fun updates s hrun => (inv_of_run hrun).sent, ?_⟩
  intro earlier quiet s s' hearlier hquiet hsome
  have hknown : s.feed.previous = (0, 0) → s.Stopped := by
    apply hearlier.invariant
    · intro _
      exact nofun
    · intro s inputs s' hok hstep h
      exact Stopped.step hok hstep h
  cases hquiet with
  | nil => exact absurd rfl hsome
  | @snoc _ s₁ inputs _ hrun hok hstep =>
    have hknown₁ : s₁.feed.previous = (0, 0) → s₁.Stopped := by
      apply hrun.invariant hknown
      intro s inputs s' hok hstep h
      exact Stopped.step (hok.2 _) hstep h
    apply Stopped.step (hok.2 _) hstep hknown₁
    cases hstep
    rw [update_previous]
    exact direction_quiet hok.1

/-- A lever to X plus, released, and the channel that refuses the release. -/
def lever (xp : Bool) (accepts : Bool) : PowerFeedInputs ℤ where
  pins := ⟨xp, false, false, false, 1, 0, 0⟩
  permitted := true
  accepts := fun _ => accepts

theorem released_stops_lever :
    ((exec step (initial : PowerFeedRun ℤ) [lever true true, lever false true]).getD initial).Stopped :=
  released_stops.2 [lever true true] [lever false true] _ _ (.snoc .nil rfl rfl)
    (.snoc .nil ⟨.inl rfl, fun _ => rfl⟩ rfl) (List.cons_ne_nil _ _)

/-- The refused release is not sent again: the carriage feeds with no button held. -/
theorem lost_release_feeds :
    ((exec step (initial : PowerFeedRun ℤ) [lever true true, lever false false, lever false true,
      lever false true]).bind received).map (·.direction) = some (1, 0) := by
  decide +kernel

end LinuxcncCtrl.PowerFeedRun
