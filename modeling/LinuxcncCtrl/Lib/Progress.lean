import LinuxcncCtrl.Lib.Runs

/-! What a machine cannot avoid. A property is inevitable from a state under some of the actions if one of
them is always enabled until the property holds, and it holds after finitely many of them, whichever
they are. A measure that they decrease proves it. -/

namespace LinuxcncCtrl.Lib

universe u v

variable {σ : Type u} {α : Type v} {step : σ → α → Option σ} {allowed : α → Prop} {P I : σ → Prop}

inductive Inevitably (step : σ → α → Option σ) (allowed : α → Prop) (P : σ → Prop) : σ → Prop
  | now {s : σ} : P s → Inevitably step allowed P s
  | later {s : σ} : (∃ a s', allowed a ∧ step s a = some s') →
      (∀ a s', allowed a → step s a = some s' → Inevitably step allowed P s') →
      Inevitably step allowed P s

theorem Inevitably.of_measure (measure : σ → ℕ)
    (henabled : ∀ s, I s → ¬ P s → ∃ a s', allowed a ∧ step s a = some s')
    (hstep : ∀ s a s', I s → ¬ P s → allowed a → step s a = some s' → I s' ∧ measure s' < measure s)
    {s : σ} (hs : I s) : Inevitably step allowed P s := by
  induction hn : measure s using Nat.strongRecOn generalizing s with
  | ind n ih =>
    by_cases hp : P s
    · exact .now hp
    · refine .later (henabled s hs hp) fun a s' ha hs' => ?_
      obtain ⟨hI, hlt⟩ := hstep s a s' hs hp ha hs'
      exact ih _ (hn ▸ hlt) hI rfl

end LinuxcncCtrl.Lib
