import LinuxcncCtrl.Sanity.ProgramActivation

/-! Admission of program opens. The flag `opening` counts the pending opens as long as no
`PendingWorkspaceLease` outlives its open into the next one: its destructor clears the flag whoever
holds it by then. -/

namespace LinuxcncCtrl

open Lib ProgramCommand

namespace ProgramState

variable {W : Type} [DecidableEq W]

def Exclusive (s : ProgramState W) : Prop :=
  s.pendingOpens ≤ s.opening.toNat

variable {s : ProgramState W}

theorem exclusive_startup (h : s.Startup) : s.Exclusive := by
  simp [Exclusive, pendingOpens, queuedOpens, trackedOpens, h.requests, h.queue, h.tracked]

theorem pendingOpens_openCompleted (s : ProgramState W) (o : OpenCommand W)
    (rest : List (ProgramCommand W)) :
    ({ s.openCompleted o with tracked := rest }).pendingOpens =
      s.requests.length + (opens s.queue).length + (opens rest).length := by
  by_cases h : s.active = some o.workspace <;>
    simp [pendingOpens, queuedOpens, trackedOpens, openCompleted, releaseActive, h]

theorem openCompleted_opening (s : ProgramState W) (o : OpenCommand W) :
    (s.openCompleted o).opening = false := by
  simp only [openCompleted]
  split_ifs <;> rfl

omit [DecidableEq W] in
theorem exclusive_workOpen (h : s.Exclusive) {o : OpenCommand W}
    {rest : List (ProgramCommand W)} (hq : s.queue = .programOpen o :: rest)
    (outcome : WorkerOutcome) : ({ s.workOpen o outcome with queue := rest }).Exclusive := by
  simp only [Exclusive, pendingOpens, queuedOpens, trackedOpens, hq, opens_programOpen, List.length_cons] at h
  cases outcome <;>
    simp only [Exclusive, pendingOpens, queuedOpens, trackedOpens, workOpen, opens_append, opens_programOpen,
      opens_nil, List.length_append, List.length_cons, List.length_nil] <;> omega

theorem exclusive_step {s' : ProgramState W} {a : ProgramAction W} (hok : s.LeaseInTime a)
    (hstep : s.step a = some s') (h : s.Exclusive) : s'.Exclusive := by
  have hflag := s.opening.toNat_le
  cases steps_of_step hstep with
  | admitOpen ho hm =>
    simp only [Exclusive, pendingOpens, ho, Bool.toNat_false, queuedOpens, trackedOpens] at h
    simp only [Exclusive, pendingOpens, queuedOpens, trackedOpens, List.length_append, List.length_cons,
      List.length_nil, Bool.toNat_true]
    omega
  | pinned hr hp hl => simpa only [Exclusive, pendingOpens, queuedOpens, trackedOpens, List.length_set] using h
  | missing hr hp hm | abandon hr hp hm =>
    have herase := length_eraseIdx_add_one hr
    simp only [Exclusive, pendingOpens, queuedOpens, trackedOpens, destroyLease, Bool.toNat_false] at h ⊢
    omega
  | submitOpen hr hp =>
    have herase := length_eraseIdx_add_one hr
    simp only [Exclusive, pendingOpens, queuedOpens, trackedOpens, opens_append, opens_programOpen, opens_nil,
      List.length_append, List.length_cons, List.length_nil] at h ⊢
    omega
  | submitClose => simpa [Exclusive, pendingOpens, queuedOpens, trackedOpens] using h
  | prepare hq hs => simpa [Exclusive, pendingOpens, queuedOpens, trackedOpens, prepareOpen, hq] using h
  | @workOpen o rest outcome hq hs => exact exclusive_workOpen h hq outcome
  | @workClose rest outcome hq =>
    cases outcome <;> simpa [Exclusive, pendingOpens, queuedOpens, trackedOpens, hq] using h
  | @openCompleted o rest hc ht =>
    rw [Exclusive, pendingOpens, trackedOpens, ht, opens_programOpen, List.length_cons] at h
    rw [Exclusive, pendingOpens_openCompleted, openCompleted_opening, Bool.toNat_false]
    simp only [queuedOpens] at h
    omega
  | openFailed hi ht =>
    simp only [Exclusive, pendingOpens, queuedOpens, trackedOpens, ht, opens_programOpen, openFailed,
      List.length_cons] at h ⊢
    omega
  | closeCompleted hc ht =>
    simpa [Exclusive, pendingOpens, queuedOpens, trackedOpens, closeCompleted, releaseActive, ht] using h
  | closeFailed hi ht => simpa [Exclusive, pendingOpens, queuedOpens, trackedOpens, ht] using h
  | dropLease hr hm =>
    -- the destructor clears the flag, which is sound only because nothing is pending here
    have hnone : s.pendingOpens = 0 := hok
    simpa [Exclusive, pendingOpens, queuedOpens, trackedOpens, destroyLease] using hnone
  | releaseRecoveredLeases _ _ | observed _ _ | ignored _ | dropActive _ | clearActiveLink _ | publishRevision _
  | erase _ | pruneExpired | startPreview _ | endPreview _ => exact h

theorem exclusive_run {s₀ : ProgramState W} {actions : List (ProgramAction W)} (h : s₀.Startup)
    (hrun : RunWhere step LeaseInTime s₀ actions s) : s.Exclusive :=
  hrun.invariant (exclusive_startup h) fun _ _ _ => exclusive_step

/-- As long as leases are destroyed in time, an open is admitted only when none is pending. -/
theorem programOpen_exclusive {s₀ s : ProgramState W} {actions : List (ProgramAction W)}
    (h : s₀.Startup) (hrun : RunWhere step LeaseInTime s₀ actions s) :
    s.pendingOpens ≤ 1 ∧ ∀ w s', s.step (.admitOpen w) = some s' → s.pendingOpens = 0 := by
  have hexclusive := exclusive_run h hrun
  refine ⟨hexclusive.trans s.opening.toNat_le, fun w s' hadmitted => ?_⟩
  cases steps_of_step hadmitted with
  | admitOpen ho hm => simpa [Exclusive, ho] using hexclusive

/-- Three workspaces are published and nothing was recovered. -/
def emptyStart : ProgramState ℕ where
  link := .empty
  leases w := if w < 3 then some 0 else none
  recovered := []

theorem emptyStart_startup : emptyStart.Startup where
  active := rfl
  opening := rfl
  requests := rfl
  queue := rfl
  tracked := rfl
  resolved := rfl
  status := rfl
  previews _ := rfl
  leases w := by
    simp only [emptyStart, List.not_mem_nil, if_false]
    split_ifs <;> rfl
  link := .inl rfl

def openAndComplete (w : ℕ) : List (ProgramAction ℕ) :=
  [.admitOpen w, .pin 0 true, .submitOpen 0, .prepare, .worker .tracked, .releaseRecoveredLeases, .resolve true]

/-- Two opens one after the other, the first lease destroyed in between. -/
theorem programOpen_exclusive_two_opens : ∃ s : ProgramState ℕ,
    RunWhere step LeaseInTime emptyStart (openAndComplete 0 ++ [.dropLease 0, .admitOpen 1]) s ∧
      s.pendingOpens = 1 ∧ s.pendingOpens ≤ 1 ∧
        ∀ w s', s.step (.admitOpen w) = some s' → s.pendingOpens = 0 := by
  have hrun : RunWhere step LeaseInTime emptyStart
      (openAndComplete 0 ++ [.dropLease 0, .admitOpen 1]) _ := .of_exec rfl
  exact ⟨_, hrun, rfl, programOpen_exclusive emptyStart_startup hrun⟩

/-- The first open is completed and answered, the second is admitted, and only then is the lease of
the first destroyed. The third is admitted while the second is pending. -/
theorem programOpen_admitted_twice : ∃ s s' : ProgramState ℕ,
    emptyStart.Startup ∧ Run step emptyStart (openAndComplete 0 ++ [.admitOpen 1, .dropLease 0]) s ∧
      s.pendingOpens = 1 ∧ s.step (.admitOpen 2) = some s' ∧ s'.pendingOpens = 2 := by
  have hrun : Run step emptyStart (openAndComplete 0 ++ [.admitOpen 1, .dropLease 0]) _ := .of_exec rfl
  exact ⟨_, _, emptyStart_startup, hrun, rfl, rfl, rfl⟩

end ProgramState

end LinuxcncCtrl
