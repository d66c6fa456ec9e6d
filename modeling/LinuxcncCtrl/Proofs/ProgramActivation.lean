import LinuxcncCtrl.Sanity.ProgramLink

/-! The program link, the active workspace and the leases over whole runs. The status thread clears the link
also when an open has been committed, and some time after it has returned the lease of what is behind it. -/

namespace LinuxcncCtrl

open Lib ProgramCommand

namespace ProgramState

variable {W : Type} [DecidableEq W]

variable {s s' : ProgramState W}

theorem linked_step {a : ProgramAction W} (hok : s.Serialized a) (hstep : s.step a = some s')
    (haccounted : s.Accounted) (hx : s.Exclusive) (h : s.Linked) : s'.Linked := by
  cases steps_of_step hstep with
  | admitOpen _ _ | missing _ _ _ | ignored _ =>
    exact h.congr rfl rfl h.queued h.tracked rfl rfl rfl fun _ _ hsome => hsome
  | pinned _ _ _ | startPreview _ | endPreview _ =>
    exact h.congr rfl rfl h.queued h.tracked rfl rfl rfl fun w _ hsome => by simpa using hsome
  | abandon _ _ _ =>
    exact h.congr rfl rfl h.queued h.tracked rfl rfl rfl fun w _ hsome => by simpa [destroyLease] using hsome
  | @dropLease _ o _ _ =>
    refine h.congr rfl rfl h.queued h.tracked rfl rfl rfl fun w _ hsome => ?_
    cases hrelease : o.release <;> simpa [destroyLease, hrelease] using hsome
  | submitOpen hr hp =>
    refine h.congr rfl ?_ (fun o ho => ?_) h.tracked rfl rfl rfl fun _ _ hsome => hsome
    · simp [committedOpens, queuedOpens, trackedOpens]
    · simp only [queuedOpens, opens_append, opens_programOpen, opens_nil, List.mem_append,
        List.mem_singleton] at ho
      rcases ho with ho | rfl
      · exact h.queued o ho
      · exact .inl rfl
  | submitClose =>
    refine h.congr rfl ?_ ?_ h.tracked rfl rfl rfl fun _ _ hsome => hsome
    · simp [committedOpens, queuedOpens, trackedOpens]
    · simpa [queuedOpens] using h.queued
  | prepare hq hs => exact linked_prepareOpen h hx haccounted hq hs
  | workOpen hq hs => exact linked_workOpen h hx hq hs
  | @workClose rest outcome hq =>
    have hsame : opens rest = s.queuedOpens := by simp [queuedOpens, hq]
    have htracked : opens (if outcome = .tracked then s.tracked ++ [.programClose] else s.tracked) =
        s.trackedOpens := by
      split_ifs <;> simp [trackedOpens]
    refine h.congr rfl ?_ ?_ ?_ rfl rfl rfl fun _ _ hsome => hsome
    · simp only [committedOpens, queuedOpens, trackedOpens, hsame, htracked]
    · simp only [queuedOpens, hsame]
      exact h.queued
    · simp only [trackedOpens, htracked]
      exact h.tracked
  | releaseRecoveredLeases hi ht => exact linked_releaseRecovered h (by simp) (by simp) (by simp)
  | openCompleted hc ht => exact linked_openCompleted h hx ht
  | openFailed hi ht => exact linked_openFailed h hx ht
  | closeCompleted hc ht => exact linked_releaseActive (linked_dropClose h ht) (by simp [closeCompleted])
  | closeFailed hi ht => exact linked_dropClose h ht
  | observed hi ho =>
    refine linked_releaseRecovered h (by simp) (by simp) fun hnone hactive => (h.rest hi hactive).resolve_right ?_
    have hrecovered : s.recovered = [] := by simpa using hnone
    simp [hrecovered]
  | @dropActive released ho =>
    refine linked_releaseActive h fun hstatus => ?_
    have hquiet : released = false ∧ s.active = none := by
      split_ifs at hstatus with hclear
      · simp at hstatus
      · simpa using hclear
    exact ⟨hquiet.2, h.unreleased (hquiet.1 ▸ ho) hquiet.2⟩
  | clearActiveLink hc =>
    have hnone : ({ s with link := .empty, status := .idle }).committedOpens = [] := hok.2
    refine ⟨by simp [hnone], h.queued, h.tracked, fun w hw => ?_, fun _ _ => .inl (resting_of_none hnone), by simp,
      by simp, fun w hw => ?_⟩
    · cases (h.clearing _ hc).symm.trans hw
    · rw [reached_of_none hnone] at hw
      cases hw
  | @publishRevision v hv =>
    refine h.congr rfl rfl h.queued h.tracked rfl rfl rfl fun w _ hsome => ?_
    by_cases hw : w = v
    · simp [hw]
    · simpa [hw] using hsome
  | @erase v hv =>
    refine h.congr rfl rfl h.queued h.tracked rfl rfl rfl fun w hw hsome => ?_
    by_cases hwv : w = v
    · subst hwv
      by_cases hidle : s.status = .idle
      · have hleased := h.leased hx haccounted hidle hw
        simp [hv] at hleased
      · exact absurd hw (hok.2 hidle)
    · simpa [hwv] using hsome
  | @pruneExpired removed =>
    refine h.congr rfl rfl h.queued h.tracked rfl rfl rfl fun w hw hsome => ?_
    dsimp only
    split_ifs with hremoved
    · by_cases hidle : s.status = .idle
      · have hleased := h.leased hx haccounted hidle hw
        simp [hremoved.2] at hleased
      · exact absurd ((hok.2 hidle w hw).symm.trans hremoved.1) (by decide)
    · exact hsome

theorem linked_run {s₀ : ProgramState W} {actions : List (ProgramAction W)} (h : s₀.Startup)
    (hrun : RunWhere step Serialized s₀ actions s) : s.Accounted ∧ s.Exclusive ∧ s.Linked := by
  apply hrun.invariant (P := fun s => s.Accounted ∧ s.Exclusive ∧ s.Linked)
  · exact ⟨accounted_startup h, exclusive_startup h, linked_startup h⟩
  · rintro s a s' hok hstep ⟨haccounted, hx, hlinked⟩
    exact ⟨accounted_step haccounted hstep, exclusive_step hok.1 hstep hx,
      linked_step hok hstep haccounted hx hlinked⟩

/-- A close, from its submission to the cleared link. -/
def closeAndComplete : List (ProgramAction ℕ) :=
  [.submitClose, .worker .tracked, .releaseRecoveredLeases, .resolve true, .clearActiveLink]

/-- A close and then an open of workspace 1 are both sent to LinuxCNC before one status observation
answers them, in this order. -/
def closeThenOpen : List (ProgramAction ℕ) :=
  openAndComplete 0 ++ [.dropLease 0, .submitClose, .admitOpen 1, .pin 0 true, .submitOpen 0,
    .worker .tracked, .prepare, .worker .tracked, .releaseRecoveredLeases, .resolve true, .clearActiveLink,
    .releaseRecoveredLeases, .resolve true]

end ProgramState

end LinuxcncCtrl
