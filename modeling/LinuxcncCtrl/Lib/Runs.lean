import Mathlib

/-! Runs of a guarded transition function. A machine is a function `step : σ → α → Option σ`;
an action for which it returns `none` is not enabled in that state. An invariant is proved once
per action and lifted here to every run, and to every run whose steps meet a side condition. -/

namespace LinuxcncCtrl.Lib

universe u v

variable {σ : Type u} {α : Type v}

/-- The actions `as` are enabled one after another from `s₀` and lead to `s`. -/
inductive Run (step : σ → α → Option σ) (s₀ : σ) : List α → σ → Prop
  | nil : Run step s₀ [] s₀
  | snoc {as : List α} {s : σ} {a : α} {s' : σ} :
      Run step s₀ as s → step s a = some s' → Run step s₀ (as ++ [a]) s'

/-- A run each of whose steps meets `ok` in the state before it. -/
inductive RunWhere (step : σ → α → Option σ) (ok : σ → α → Prop) (s₀ : σ) : List α → σ → Prop
  | nil : RunWhere step ok s₀ [] s₀
  | snoc {as : List α} {s : σ} {a : α} {s' : σ} :
      RunWhere step ok s₀ as s → ok s a → step s a = some s' → RunWhere step ok s₀ (as ++ [a]) s'

variable {step : σ → α → Option σ} {s : σ} {as : List α} {P : σ → Prop} {s₀ : σ}

theorem RunWhere.invariant {ok : σ → α → Prop} (h0 : P s₀)
    (hstep : ∀ s a s', ok s a → step s a = some s' → P s → P s')
    (h : RunWhere step ok s₀ as s) : P s := by
  induction h with
  | nil => exact h0
  | snoc _ hok hs ih => exact hstep _ _ _ hok hs ih

theorem Run.invariant
    (h0 : P s₀) (hstep : ∀ s a s', step s a = some s' → P s → P s') (h : Run step s₀ as s) :
    P s := by
  induction h with
  | nil => exact h0
  | snoc _ hs ih => exact hstep _ _ _ hs ih

/-- Run a list of actions; `none` as soon as one is not enabled. -/
def exec (step : σ → α → Option σ) (s : σ) : List α → Option σ
  | [] => some s
  | a :: as => (step s a).bind fun s' => exec step s' as

variable {s' : σ}

theorem Run.cons {s₁ : σ} {a : α}
    (ha : step s a = some s₁) (h : Run step s₁ as s') : Run step s (a :: as) s' := by
  induction h with
  | nil => exact .snoc .nil ha
  | snoc _ hs ih => exact .snoc ih hs

theorem Run.of_exec (h : exec step s as = some s') : Run step s as s' := by
  induction as generalizing s with
  | nil =>
    cases h
    exact .nil
  | cons a as ih =>
    obtain ⟨s₁, ha, has⟩ := Option.bind_eq_some_iff.mp h
    exact .cons ha (ih has)

/-- The state a list of actions leads to, when they are all enabled. -/
theorem Run.getD_exec (h : (exec step s as).isSome = true) : Run step s as ((exec step s as).getD s) := by
  obtain ⟨s', hs'⟩ := Option.isSome_iff_exists.mp h
  rw [hs', Option.getD_some]
  exact .of_exec hs'

theorem Run.last {a : α} (h : Run step s₀ (as ++ [a]) s') : ∃ s, Run step s₀ as s ∧ step s a = some s' := by
  generalize hall : as ++ [a] = all at h
  cases h with
  | nil => simp at hall
  | snoc hrun hs =>
    obtain ⟨rfl, ⟨⟩⟩ := List.append_inj' hall rfl
    exact ⟨_, hrun, hs⟩

section Where

variable {step : σ → α → Option σ} {ok : σ → α → Prop} {s s' : σ} {as : List α}

theorem RunWhere.last {s₀ : σ} {a : α} (h : RunWhere step ok s₀ (as ++ [a]) s') :
    ∃ s, RunWhere step ok s₀ as s ∧ ok s a ∧ step s a = some s' := by
  generalize hall : as ++ [a] = all at h
  cases h with
  | nil => simp at hall
  | snoc hrun hok hs =>
    obtain ⟨rfl, ⟨⟩⟩ := List.append_inj' hall rfl
    exact ⟨_, hrun, hok, hs⟩

/-- Run a list of actions, each of which must also meet the side condition. -/
def execWhere (step : σ → α → Option σ) (ok : σ → α → Prop) [∀ s a, Decidable (ok s a)] (s : σ) :
    List α → Option σ
  | [] => some s
  | a :: as => if ok s a then (step s a).bind fun s' => execWhere step ok s' as else none

theorem RunWhere.cons {s₁ : σ} {a : α} (hok : ok s a) (ha : step s a = some s₁)
    (h : RunWhere step ok s₁ as s') : RunWhere step ok s (a :: as) s' := by
  induction h with
  | nil => exact .snoc .nil hok ha
  | snoc _ hok hs ih => exact .snoc ih hok hs

theorem RunWhere.of_exec [∀ s a, Decidable (ok s a)]
    (h : execWhere step ok s as = some s') : RunWhere step ok s as s' := by
  induction as generalizing s with
  | nil =>
    cases h
    exact .nil
  | cons a as ih =>
    obtain ⟨hok, h⟩ := Option.ite_none_right_eq_some.mp h
    obtain ⟨s₁, ha, has⟩ := Option.bind_eq_some_iff.mp h
    exact .cons hok ha (ih has)

/-- The state a list of actions leads to, when they are all enabled and meet the condition. -/
theorem RunWhere.getD_exec [∀ s a, Decidable (ok s a)] (h : (execWhere step ok s as).isSome = true) :
    RunWhere step ok s as ((execWhere step ok s as).getD s) := by
  obtain ⟨s', hs'⟩ := Option.isSome_iff_exists.mp h
  rw [hs', Option.getD_some]
  exact .of_exec hs'

end Where

/-- The event has happened in the run to `s`, and `ok` has held in every state since. -/
def Since (step : σ → α → Option σ) (ok : σ → Prop) (event : σ → α → σ → Prop) (s₀ : σ) (as : List α)
    (s : σ) : Prop :=
  ∃ before a after t t', as = before ++ a :: after ∧ Run step s₀ before t ∧ step t a = some t' ∧
    event t a t' ∧ RunWhere step (fun u _ => ok u) t' after s ∧ ok s

/-- What only the event brings about, and what implies `ok` while it lasts. -/
theorem Run.since {I ok : σ → Prop} {event : σ → α → σ → Prop} (hrun : Run step s₀ as s) (h0 : I s₀)
    (hinv : ∀ s a s', step s a = some s' → I s → I s') (hnot : ¬P s₀) (hok : ∀ s, I s → P s → ok s)
    (hstep : ∀ s a s', step s a = some s' → I s → P s' → P s ∨ event s a s') (h : P s) :
    Since step ok event s₀ as s := by
  induction hrun with
  | nil => exact absurd h hnot
  | @snoc as s a s' hrun hs ih =>
    have hs₀ : I s := hrun.invariant h0 hinv
    have hs' : ok s' := hok s' (hinv s a s' hs hs₀) h
    rcases hstep s a s' hs hs₀ h with hbefore | hevent
    · obtain ⟨before, b, after, t, t', rfl, hreach, hb, hevent, hsince, hlast⟩ := ih hbefore
      exact ⟨before, b, after ++ [a], t, t', by simp, hreach, hb, hevent, hsince.snoc hlast hs, hs'⟩
    · exact ⟨as, a, [], s, s', rfl, hrun, hs, hevent, .nil, hs'⟩

end LinuxcncCtrl.Lib
