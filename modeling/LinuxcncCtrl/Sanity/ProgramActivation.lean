import LinuxcncCtrl.Lib.Counting
import LinuxcncCtrl.Spec.ProgramActivation

/-! Every lease has an owner: the startup recovery, a running preview, the active program, a pinned request, or
an open whose `PendingWorkspaceLease` will return it. -/

namespace LinuxcncCtrl

open Lib ProgramCommand

variable {W : Type} [DecidableEq W]

namespace ProgramCommand

omit [DecidableEq W]

variable (o : OpenCommand W) (commands rest : List (ProgramCommand W))

@[simp]
theorem opens_nil : opens ([] : List (ProgramCommand W)) = [] := rfl

@[simp]
theorem opens_programOpen : opens (.programOpen o :: rest) = o :: opens rest := rfl

@[simp]
theorem opens_programClose : opens (.programClose :: rest) = opens rest := rfl

@[simp]
theorem opens_append : opens (commands ++ rest) = opens commands ++ opens rest :=
  List.filterMap_append

end ProgramCommand

theorem pinEntry_getD {leases : W → Option ℕ} {v : W} (h : (leases v).isSome) (w : W) :
    (pinEntry leases v w).getD 0 = (leases w).getD 0 + (v == w).toNat := by
  obtain ⟨n, hn⟩ := Option.isSome_iff_exists.mp h
  by_cases hw : v = w
  · subst hw
    simp [pinEntry, hn]
  · simp [pinEntry, hw, Ne.symm hw]

theorem unpinEntry_getD (leases : W → Option ℕ) (v w : W) :
    (unpinEntry leases v w).getD 0 = (leases w).getD 0 - (v == w).toNat := by
  by_cases hw : v = w
  · subst hw
    cases hn : leases v <;> simp [unpinEntry, hn]
  · have hne : (v == w) = false := beq_false_of_ne hw
    simp [unpinEntry, hne, Ne.symm hw]

theorem releaseRecoveredLeases_getD (recovered : List W) (leases : W → Option ℕ) (w : W) :
    (releaseRecoveredLeases recovered leases w).getD 0 =
      (leases w).getD 0 - (recovered.contains w).toNat := by
  by_cases h : w ∈ recovered
  · cases hn : leases w <;> simp [releaseRecoveredLeases, h, hn]
  · simp [releaseRecoveredLeases, h]

namespace ProgramState

/-- The steps of the program state, one constructor for each way a step can go. -/
inductive Steps (s : ProgramState W) : ProgramAction W → ProgramState W → Prop
  | admitOpen {w : W} (h : s.opening = false) (hm : s.status.holdsMutex = false) : Steps s (.admitOpen w)
      { s with opening := true, requests := s.requests ++ [{ workspace := w }] }
  | pinned {i : ℕ} {r : OpenRequest W} (hr : s.requests[i]? = some r) (hp : r.pinned = false)
      (hl : (s.leases r.workspace).isSome) : Steps s (.pin i true)
      { s with
        leases := pinEntry s.leases r.workspace
        requests := s.requests.set i { r with pinned := true } }
  | missing {i : ℕ} {r : OpenRequest W} (hr : s.requests[i]? = some r) (hp : r.pinned = false)
      (hm : s.status.holdsMutex = false) :
      Steps s (.pin i false) { s with opening := false, requests := s.requests.eraseIdx i }
  | abandon {i : ℕ} {r : OpenRequest W} (hr : s.requests[i]? = some r) (hp : r.pinned = true)
      (hm : s.status.holdsMutex = false) : Steps s (.abandon i)
      { s.destroyLease r.workspace true with requests := s.requests.eraseIdx i }
  | submitOpen {i : ℕ} {r : OpenRequest W} (hr : s.requests[i]? = some r) (hp : r.pinned = true) :
      Steps s (.submitOpen i)
      { s with
        requests := s.requests.eraseIdx i
        queue := s.queue ++ [.programOpen
          { workspace := r.workspace, revision := { staging := .workspace r.workspace } }] }
  | submitClose : Steps s .submitClose { s with queue := s.queue ++ [.programClose] }
  | prepare {o : OpenCommand W} {rest : List (ProgramCommand W)} (hq : s.queue = .programOpen o :: rest)
      (hs : o.revision.state = .staged) : Steps s .prepare (s.prepareOpen o rest)
  | workOpen {o : OpenCommand W} {rest : List (ProgramCommand W)} {outcome : WorkerOutcome}
      (hq : s.queue = .programOpen o :: rest) (hs : o.revision.state = .staged ↔ outcome = .cancelled) :
      Steps s (.worker outcome) { s.workOpen o outcome with queue := rest }
  | workClose {rest : List (ProgramCommand W)} {outcome : WorkerOutcome}
      (hq : s.queue = .programClose :: rest) : Steps s (.worker outcome)
      { s with
        queue := rest
        tracked := if outcome = .tracked then s.tracked ++ [.programClose] else s.tracked }
  | releaseRecoveredLeases (hi : s.status = .idle) (ht : s.tracked ≠ []) :
      Steps s .releaseRecoveredLeases { s.releaseRecovered with status := .completing }
  | openCompleted {o : OpenCommand W} {rest : List (ProgramCommand W)} (hc : s.status = .completing)
      (ht : s.tracked = .programOpen o :: rest) :
      Steps s (.resolve true) { s.openCompleted o with tracked := rest }
  | openFailed {o : OpenCommand W} {rest : List (ProgramCommand W)} (hi : s.status = .idle)
      (ht : s.tracked = .programOpen o :: rest) :
      Steps s (.resolve false) { s.openFailed o with tracked := rest }
  | closeCompleted {rest : List (ProgramCommand W)} (hc : s.status = .completing)
      (ht : s.tracked = .programClose :: rest) :
      Steps s (.resolve true) { s.closeCompleted with tracked := rest }
  | closeFailed {rest : List (ProgramCommand W)} (hi : s.status = .idle)
      (ht : s.tracked = .programClose :: rest) : Steps s (.resolve false) { s with tracked := rest }
  | dropLease {i : ℕ} {o : OpenCommand W} (hr : s.resolved[i]? = some o) (hm : s.status.holdsMutex = false) :
      Steps s (.dropLease i)
      { s.destroyLease o.workspace o.release with resolved := s.resolved.eraseIdx i }
  | observed (hi : s.status = .idle) (ho : s.opening = false) : Steps s (.observeStatus true)
      { s.releaseRecovered with status := .observing (s.recovered ≠ []) }
  | ignored {fileEmpty : Bool} (h : fileEmpty = true → s.opening = true) : Steps s (.observeStatus fileEmpty) s
  | dropActive {released : Bool} (ho : s.status = .observing released) :
      Steps s .dropActive (s.dropActive released)
  | clearActiveLink {locked : Bool} (hc : s.status = .clearing locked) :
      Steps s .clearActiveLink { s with link := .empty, status := .idle }
  | publishRevision {w : W} (h : s.leases w = none) :
      Steps s (.publishRevision w) { s with leases := Function.update s.leases w (some 0) }
  | erase {w : W} (h : s.leases w = some 0) :
      Steps s (.erase w) { s with leases := Function.update s.leases w none }
  | pruneExpired {removed : W → Bool} : Steps s (.pruneExpired removed)
      { s with leases := fun w => if removed w ∧ s.leases w = some 0 then none else s.leases w }
  | startPreview {w : W} (h : (s.leases w).isSome) : Steps s (.startPreview w)
      { s with
        leases := pinEntry s.leases w
        previews := Function.update s.previews w (s.previews w + 1) }
  | endPreview {w : W} (h : 0 < s.previews w) : Steps s (.endPreview w)
      { s with
        leases := unpinEntry s.leases w
        previews := Function.update s.previews w (s.previews w - 1) }

theorem steps_of_step {s s' : ProgramState W} {a : ProgramAction W} (h : s.step a = some s') :
    Steps s a s' := by
  cases a with
  | admitOpen w =>
    obtain ⟨ho, ⟨⟩⟩ := Option.ite_none_left_eq_some.mp h
    simp only [not_or, Bool.not_eq_true] at ho
    exact .admitOpen ho.1 ho.2
  | pin i found =>
    cases hr : s.requests[i]? with
    | none => simp [step, hr] at h
    | some r =>
      simp only [step, hr, Option.ite_none_left_eq_some] at h
      obtain ⟨hp, h⟩ := h
      cases found with
      | true =>
        simp only [if_true, Option.ite_none_right_eq_some, Option.some.injEq] at h
        obtain ⟨hl, rfl⟩ := h
        exact .pinned hr (by simpa using hp) hl
      | false =>
        simp only [Bool.false_eq_true, if_false, Option.ite_none_left_eq_some, Option.some.injEq,
          Bool.not_eq_true] at h
        exact h.2 ▸ .missing hr (by simpa using hp) h.1
  | abandon i =>
    cases hr : s.requests[i]? with
    | none => simp [step, hr] at h
    | some r =>
      simp only [step, hr, Option.ite_none_right_eq_some, Option.some.injEq, Bool.not_eq_true'] at h
      obtain ⟨⟨hp, hm⟩, rfl⟩ := h
      exact .abandon hr hp hm
  | submitOpen i =>
    cases hr : s.requests[i]? with
    | none => simp [step, hr] at h
    | some r =>
      simp only [step, hr, Option.ite_none_right_eq_some, Option.some.injEq] at h
      obtain ⟨hp, rfl⟩ := h
      exact .submitOpen hr hp
  | submitClose =>
    cases h
    exact .submitClose
  | prepare =>
    rcases hq : s.queue with - | ⟨o | -, rest⟩
    · simp [step, hq] at h
    · simp only [step, hq, Option.ite_none_right_eq_some, Option.some.injEq] at h
      exact h.2 ▸ .prepare hq h.1
    · simp [step, hq] at h
  | worker outcome =>
    rcases hq : s.queue with - | ⟨o | -, rest⟩
    · simp [step, hq] at h
    · simp only [step, hq, Option.ite_none_right_eq_some, Option.some.injEq] at h
      exact h.2 ▸ .workOpen hq h.1
    · simp only [step, hq, Option.some.injEq] at h
      exact h ▸ .workClose hq
  | releaseRecoveredLeases =>
    obtain ⟨hguard, ⟨⟩⟩ := Option.ite_none_right_eq_some.mp h
    exact .releaseRecoveredLeases hguard.1 hguard.2
  | resolve completed =>
    cases completed with
    | true =>
      obtain ⟨hc, h⟩ := Option.ite_none_right_eq_some.mp h
      rcases ht : s.tracked with - | ⟨o | -, rest⟩ <;> simp only [ht, Option.some.injEq, reduceCtorEq] at h
      · exact h ▸ .openCompleted hc ht
      · exact h ▸ .closeCompleted hc ht
    | false =>
      obtain ⟨hi, h⟩ := Option.ite_none_right_eq_some.mp h
      rcases ht : s.tracked with - | ⟨o | -, rest⟩ <;> simp only [ht, Option.some.injEq, reduceCtorEq] at h
      · exact h ▸ .openFailed hi ht
      · exact h ▸ .closeFailed hi ht
  | dropLease i =>
    cases hr : s.resolved[i]? with
    | none => simp [step, hr] at h
    | some o =>
      simp only [step, hr, Option.ite_none_left_eq_some, Option.some.injEq, Bool.not_eq_true] at h
      exact h.2 ▸ .dropLease hr h.1
  | observeStatus fileEmpty =>
    obtain ⟨hi, ⟨⟩⟩ := Option.ite_none_right_eq_some.mp h
    by_cases hempty : fileEmpty ∧ !s.opening
    · obtain ⟨rfl, ho⟩ := hempty
      rw [observeStatus, if_pos ⟨rfl, ho⟩]
      exact .observed hi (by simpa using ho)
    · rw [observeStatus, if_neg hempty]
      exact .ignored (by simpa using hempty)
  | dropActive =>
    cases hs : s.status with
    | observing released =>
      simp only [step, hs, Option.some.injEq] at h
      exact h ▸ .dropActive hs
    | _ => simp [step, hs] at h
  | clearActiveLink =>
    cases hs : s.status with
    | clearing locked =>
      simp only [step, hs, Option.some.injEq] at h
      exact h ▸ .clearActiveLink hs
    | _ => simp [step, hs] at h
  | publishRevision w =>
    obtain ⟨hguard, ⟨⟩⟩ := Option.ite_none_right_eq_some.mp h
    exact .publishRevision hguard
  | erase w =>
    obtain ⟨hguard, ⟨⟩⟩ := Option.ite_none_right_eq_some.mp h
    exact .erase hguard
  | pruneExpired removed =>
    cases h
    exact .pruneExpired
  | startPreview w =>
    obtain ⟨hguard, ⟨⟩⟩ := Option.ite_none_right_eq_some.mp h
    exact .startPreview hguard
  | endPreview w =>
    obtain ⟨hguard, ⟨⟩⟩ := Option.ite_none_right_eq_some.mp h
    exact .endPreview hguard

end ProgramState

def OpenRequest.holds (w : W) (r : OpenRequest W) : Bool :=
  r.pinned && r.workspace == w

def OpenCommand.holds (w : W) (o : OpenCommand W) : Bool :=
  o.release && o.workspace == w

namespace ProgramState

/-- The leases of `w` that somebody will return. -/
def held (s : ProgramState W) (w : W) : ℕ :=
  (s.recovered.contains w).toNat + s.previews w + (s.active == some w).toNat +
    s.requests.countP (OpenRequest.holds w) + s.queuedOpens.countP (OpenCommand.holds w) +
    s.trackedOpens.countP (OpenCommand.holds w) + s.resolved.countP (OpenCommand.holds w)

structure Accounted (s : ProgramState W) : Prop where
  exact : ∀ w, (s.leases w).getD 0 = s.held w
  queued : ∀ o ∈ s.queuedOpens, o.release = true
  tracked : ∀ o ∈ s.trackedOpens, o.release = true

variable {s : ProgramState W} {rest : List (ProgramCommand W)} {o : OpenCommand W}

theorem accounted_startup (h : s.Startup) : s.Accounted := by
  refine ⟨fun w => ?_, ?_, ?_⟩
  · by_cases hw : w ∈ s.recovered <;>
      simp [held, h.leases, h.previews, h.active, h.requests, queuedOpens, h.queue, trackedOpens,
        h.tracked, h.resolved, hw]
  · simp [queuedOpens, h.queue]
  · simp [trackedOpens, h.tracked]

omit [DecidableEq W] in
theorem queuedOpens_cons (hq : s.queue = .programOpen o :: rest) : s.queuedOpens = o :: opens rest := by
  simp [queuedOpens, hq]

omit [DecidableEq W] in
theorem trackedOpens_cons (ht : s.tracked = .programOpen o :: rest) : s.trackedOpens = o :: opens rest := by
  simp [trackedOpens, ht]

theorem update_getD {leases : W → Option ℕ} {w : W} {entry : Option ℕ}
    (h : entry.getD 0 = (leases w).getD 0) (v : W) :
    (Function.update leases w entry v).getD 0 = (leases v).getD 0 := by
  by_cases hv : v = w
  · rw [hv, Function.update_self, h]
  · rw [Function.update_of_ne hv]

omit [DecidableEq W] in
theorem prune_getD (removed : W → Bool) (leases : W → Option ℕ) (w : W) :
    (if removed w ∧ leases w = some 0 then none else leases w).getD 0 = (leases w).getD 0 := by
  split_ifs with hw
  · simp [hw.2]
  · rfl

theorem releaseActive_leases (s : ProgramState W) (w : W) :
    (s.releaseActive.leases w).getD 0 = (s.leases w).getD 0 - (s.active == some w).toNat := by
  cases ha : s.active with
  | none => simp [releaseActive, ha]
  | some previous => simp only [releaseActive, ha, unpinEntry_getD, Option.some_beq_some]

theorem holds_revision (o : OpenCommand W) (w : W) (revision : DirectoryTransaction W) :
    ({ o with revision } : OpenCommand W).holds w = o.holds w := rfl

theorem accounted_prepareOpen (h : s.Accounted) (hq : s.queue = .programOpen o :: rest) :
    (s.prepareOpen o rest).Accounted := by
  have hqueued := queuedOpens_cons hq
  refine ⟨fun w => ?_, fun o' ho' => ?_, h.tracked⟩
  · have hx := h.exact w
    rw [held, hqueued, countP_cons_toNat] at hx
    simp only [prepareOpen, held, queuedOpens, trackedOpens, opens_programOpen, countP_cons_toNat,
      holds_revision] at hx ⊢
    omega
  · simp only [prepareOpen, queuedOpens, opens_programOpen, List.mem_cons] at ho'
    rcases ho' with rfl | ho'
    · exact h.queued o (by simp [hqueued])
    · exact h.queued o' (by simp [hqueued, ho'])

theorem accounted_workOpen (h : s.Accounted) (hq : s.queue = .programOpen o :: rest)
    (outcome : WorkerOutcome) : ({ s.workOpen o outcome with queue := rest }).Accounted := by
  have hqueued := queuedOpens_cons hq
  have hrelease : o.release = true := h.queued o (by simp [hqueued])
  have hrest : ∀ o' ∈ opens rest, o'.release = true :=
    fun o' ho' => h.queued o' (by rw [hqueued]; exact List.mem_cons_of_mem _ ho')
  have hx : ∀ w, (s.leases w).getD 0 = (s.recovered.contains w).toNat + s.previews w +
      (s.active == some w).toNat + s.requests.countP (OpenRequest.holds w) +
      ((opens rest).countP (OpenCommand.holds w) + (o.holds w).toNat) +
      s.trackedOpens.countP (OpenCommand.holds w) + s.resolved.countP (OpenCommand.holds w) := by
    intro w
    rw [h.exact w, held, hqueued, countP_cons_toNat]
  cases outcome with
  | tracked =>
    have htracked : ({ s.workOpen o .tracked with queue := rest } : ProgramState W).trackedOpens =
        s.trackedOpens ++ [o] := by
      simp [workOpen, trackedOpens]
    refine ⟨fun w => ?_, hrest, ?_⟩
    · rw [held, htracked, countP_concat_toNat]
      have := hx w
      simp only [workOpen, queuedOpens]
      omega
    · intro o' ho'
      rw [htracked, List.mem_append, List.mem_singleton] at ho'
      rcases ho' with ho' | rfl
      · exact h.tracked o' ho'
      · exact hrelease
  | _ =>
    refine ⟨fun w => ?_, hrest, h.tracked⟩
    have := hx w
    simp only [workOpen, held, queuedOpens, trackedOpens, countP_concat_toNat, holds_revision] at this ⊢
    omega

theorem openCompleted_queue (s : ProgramState W) (o : OpenCommand W) :
    (s.openCompleted o).queue = s.queue := by
  simp only [openCompleted]
  split_ifs <;> rfl

section

variable (h : s.Accounted)

include h

theorem accounted_openCompleted (ht : s.tracked = .programOpen o :: rest) :
    ({ s.openCompleted o with tracked := rest }).Accounted := by
  have htracked := trackedOpens_cons ht
  have hrelease : o.release = true := h.tracked o (by simp [htracked])
  have hrest : ∀ o' ∈ opens rest, o'.release = true :=
    fun o' ho' => h.tracked o' (by rw [htracked]; exact List.mem_cons_of_mem _ ho')
  have hholds : ∀ w, o.holds w = (o.workspace == w) := fun w => by simp [OpenCommand.holds, hrelease]
  refine ⟨fun w => ?_, ?_, hrest⟩
  · have hx := h.exact w
    rw [held, htracked, countP_cons_toNat] at hx
    by_cases hactive : s.active = some o.workspace
    · have hkept : OpenCommand.holds w ⟨o.workspace, o.revision.complete, true⟩ = o.holds w := by
        simp [OpenCommand.holds, hrelease]
      simp only [openCompleted, hactive, if_true, held, queuedOpens, trackedOpens, hkept,
        countP_concat_toNat] at hx ⊢
      omega
    · have hmoved : OpenCommand.holds w ⟨o.workspace, o.revision.complete, false⟩ = false := by
        simp [OpenCommand.holds]
      simp only [openCompleted, hactive, if_false, held, queuedOpens, trackedOpens, hmoved, hholds,
        countP_concat_toNat, releaseActive_leases, Option.some_beq_some] at hx ⊢
      simp only [releaseActive, Bool.toNat_false]
      omega
  · simp only [queuedOpens, openCompleted_queue]
    exact h.queued

theorem accounted_openFailed (ht : s.tracked = .programOpen o :: rest) :
    ({ s.openFailed o with tracked := rest }).Accounted := by
  have htracked := trackedOpens_cons ht
  refine ⟨fun w => ?_, h.queued, fun o' ho' => h.tracked o' ?_⟩
  · have hx := h.exact w
    rw [held, htracked, countP_cons_toNat] at hx
    simp only [openFailed, held, queuedOpens, trackedOpens, countP_concat_toNat, holds_revision] at hx ⊢
    omega
  · rw [htracked]
    exact List.mem_cons_of_mem _ ho'

theorem accounted_releaseRecovered (status : StatusThread) :
    ({ s.releaseRecovered with status }).Accounted := by
  refine ⟨fun w => ?_, h.queued, h.tracked⟩
  have hx := h.exact w
  simp only [releaseRecovered, held, queuedOpens, trackedOpens, releaseRecoveredLeases_getD, List.contains_nil,
    Bool.toNat_false] at hx ⊢
  omega

theorem accounted_releaseActive (status : StatusThread) : ({ s.releaseActive with status }).Accounted := by
  refine ⟨fun w => ?_, h.queued, h.tracked⟩
  have hx := h.exact w
  have hnone : (none == some w) = false := rfl
  simp only [held, queuedOpens, trackedOpens, releaseActive_leases] at hx ⊢
  simp only [releaseActive, hnone, Bool.toNat_false]
  omega

theorem accounted_dropClose (ht : s.tracked = .programClose :: rest) :
    ({ s with tracked := rest }).Accounted := by
  have htracked : ({ s with tracked := rest }).trackedOpens = s.trackedOpens := by
    simp [trackedOpens, ht]
  refine ⟨fun w => ?_, h.queued, htracked ▸ h.tracked⟩
  rw [held, htracked]
  exact h.exact w

theorem accounted_leases {leases : W → Option ℕ} (hleases : ∀ w, (leases w).getD 0 = (s.leases w).getD 0) :
    ({ s with leases }).Accounted :=
  ⟨fun w => (hleases w).trans (h.exact w), h.queued, h.tracked⟩

theorem accounted_step {s' : ProgramState W} {a : ProgramAction W} (hstep : s.step a = some s') :
    s'.Accounted := by
  cases steps_of_step hstep with
  | @admitOpen w ho hm =>
    refine ⟨fun v => ?_, h.queued, h.tracked⟩
    have hx := h.exact v
    have hholds : OpenRequest.holds v ⟨w, false⟩ = false := rfl
    simp only [held, queuedOpens, trackedOpens, countP_concat_toNat, hholds, Bool.toNat_false] at hx ⊢
    omega
  | @pinned i r hr hp hl =>
    refine ⟨fun v => ?_, h.queued, h.tracked⟩
    have hx := h.exact v
    have hset := countP_set (OpenRequest.holds v) hr { r with pinned := true }
    have hbefore : r.holds v = false := by simp [OpenRequest.holds, hp]
    have hafter : OpenRequest.holds v ⟨r.workspace, true⟩ = (r.workspace == v) := by
      simp [OpenRequest.holds]
    simp only [held, queuedOpens, trackedOpens, pinEntry_getD hl, hbefore, hafter,
      Bool.toNat_false] at hx hset ⊢
    omega
  | @missing i r hr hp hm =>
    refine ⟨fun v => ?_, h.queued, h.tracked⟩
    have hx := h.exact v
    have herase := countP_eraseIdx (p := OpenRequest.holds v) hr
    have hholds : r.holds v = false := by simp [OpenRequest.holds, hp]
    simp only [held, queuedOpens, trackedOpens, hholds, Bool.toNat_false] at hx herase ⊢
    omega
  | @abandon i r hr hp hm =>
    refine ⟨fun v => ?_, h.queued, h.tracked⟩
    have hx := h.exact v
    have herase := countP_eraseIdx (p := OpenRequest.holds v) hr
    have hholds : r.holds v = (r.workspace == v) := by simp [OpenRequest.holds, hp]
    simp only [destroyLease, if_true, held, queuedOpens, trackedOpens, hholds,
      unpinEntry_getD] at hx herase ⊢
    omega
  | @submitOpen i r hr hp =>
    refine ⟨fun v => ?_, fun o ho => ?_, h.tracked⟩
    · have hx := h.exact v
      have herase := countP_eraseIdx (p := OpenRequest.holds v) hr
      have hrequest : r.holds v = (r.workspace == v) := by simp [OpenRequest.holds, hp]
      have hcommand : OpenCommand.holds v ⟨r.workspace, ⟨.workspace r.workspace, .staged⟩, true⟩ =
          (r.workspace == v) := by simp [OpenCommand.holds]
      simp only [held, queuedOpens, trackedOpens, opens_append, opens_programOpen, opens_nil,
        countP_concat_toNat, hcommand, hrequest] at hx herase ⊢
      omega
    · simp only [queuedOpens, opens_append, opens_programOpen, opens_nil, List.mem_append,
        List.mem_singleton] at ho
      rcases ho with ho | rfl
      · exact h.queued o ho
      · rfl
  | submitClose =>
    have hqueued : opens (s.queue ++ [.programClose]) = s.queuedOpens := by simp [queuedOpens]
    refine ⟨fun v => ?_, ?_, h.tracked⟩
    · have hx := h.exact v
      simp only [held, trackedOpens] at hx
      simp only [held, queuedOpens, trackedOpens, hqueued, hx]
    · simp only [queuedOpens, hqueued]
      exact h.queued
  | prepare hq hs => exact accounted_prepareOpen h hq
  | @workOpen o rest outcome hq hs => exact accounted_workOpen h hq outcome
  | @workClose rest outcome hq =>
    have hqueued : s.queuedOpens = opens rest := by simp [queuedOpens, hq]
    have hrest := h.queued
    have htracked : opens (if outcome = .tracked then s.tracked ++ [.programClose] else s.tracked) =
        s.trackedOpens := by
      split_ifs <;> simp [trackedOpens]
    refine ⟨fun v => ?_, ?_, ?_⟩
    · have hx := h.exact v
      simp only [held, hqueued] at hx
      simp only [held, trackedOpens, queuedOpens, htracked, hx]
    · rw [hqueued] at hrest
      exact hrest
    · simp only [trackedOpens, htracked]
      exact h.tracked
  | releaseRecoveredLeases hi ht => exact accounted_releaseRecovered h _
  | openCompleted hc ht => exact accounted_openCompleted h ht
  | openFailed hi ht => exact accounted_openFailed h ht
  | closeCompleted hc ht => exact accounted_releaseActive (accounted_dropClose h ht) _
  | closeFailed hi ht => exact accounted_dropClose h ht
  | @dropLease i o hr hm =>
    refine ⟨fun v => ?_, h.queued, h.tracked⟩
    have hx := h.exact v
    have herase := countP_eraseIdx (p := OpenCommand.holds v) hr
    cases hrelease : o.release with
    | true =>
      have hholds : o.holds v = (o.workspace == v) := by simp [OpenCommand.holds, hrelease]
      simp only [destroyLease, if_true, held, queuedOpens, trackedOpens, hholds,
        unpinEntry_getD] at hx herase ⊢
      omega
    | false =>
      have hholds : o.holds v = false := by simp [OpenCommand.holds, hrelease]
      simp only [destroyLease, Bool.false_eq_true, if_false, held, queuedOpens, trackedOpens, hholds,
        Bool.toNat_false] at hx herase ⊢
      omega
  | observed hi ho => exact accounted_releaseRecovered h _
  | ignored => exact h
  | dropActive ho => exact accounted_releaseActive h _
  | clearActiveLink hc => exact ⟨h.exact, h.queued, h.tracked⟩
  | publishRevision hw | erase hw => exact accounted_leases h (update_getD (by simp [hw]))
  | pruneExpired => exact accounted_leases h (prune_getD _ s.leases)
  | @startPreview w hw =>
    refine ⟨fun v => ?_, h.queued, h.tracked⟩
    have hx := h.exact v
    simp only [held, queuedOpens, trackedOpens, pinEntry_getD hw] at hx ⊢
    by_cases hv : w = v
    · subst hv
      simp only [Function.update_self, beq_self_eq_true, Bool.toNat_true]
      omega
    · simp only [Function.update_of_ne (Ne.symm hv), beq_false_of_ne hv, Bool.toNat_false]
      omega
  | @endPreview w hw =>
    refine ⟨fun v => ?_, h.queued, h.tracked⟩
    have hx := h.exact v
    simp only [held, queuedOpens, trackedOpens, unpinEntry_getD] at hx ⊢
    by_cases hv : w = v
    · subst hv
      simp only [Function.update_self, beq_self_eq_true, Bool.toNat_true]
      omega
    · simp only [Function.update_of_ne (Ne.symm hv), beq_false_of_ne hv, Bool.toNat_false]
      omega

end

end ProgramState

end LinuxcncCtrl
