import LinuxcncCtrl.Proofs.ProgramOpen

/-! The program link. The transactions of two opens never overlap once admissions are exclusive, so the link is
at the workspace of the committed open, or where that open has found it. -/

namespace LinuxcncCtrl

open Lib ProgramCommand

namespace ProgramState

variable {W : Type}

/-- The link as the committed open has found it. -/
def resting (s : ProgramState W) : ActiveLink W :=
  match s.committedOpens with
  | [] => s.link
  | o :: _ => o.revision.staging

/-- Only the completion of an open and the clearing of the link change where it rests: at the active
workspace, and without one, unless the status thread is under way, at the empty directory or a recovered
workspace. -/
structure Linked (s : ProgramState W) : Prop where
  committed : ∀ o ∈ s.committedOpens, s.link = .workspace o.workspace
  queued : ∀ o ∈ s.queuedOpens, o.revision = ⟨.workspace o.workspace, .staged⟩ ∨ o.revision.state = .committed
  tracked : ∀ o ∈ s.trackedOpens, o.revision.state = .committed
  active : ∀ w, s.active = some w → s.resting = .workspace w
  rest : s.status = .idle → s.active = none →
    s.resting = .empty ∨ ∃ w ∈ s.recovered, s.resting = .workspace w
  unreleased : s.status = .observing false → s.active = none → s.resting = .empty
  clearing : ∀ locked, s.status = .clearing locked → s.active = none
  stored : ∀ w ∈ s.reached, (s.leases w).isSome

variable {s s' : ProgramState W} {o : OpenCommand W} {rest : List (ProgramCommand W)} {w : W}

theorem resting_of_none (h : s.committedOpens = []) : s.resting = s.link := by
  simp only [resting, h]

theorem reached_of_none (h : s.committedOpens = []) : s.reached = s.link.target := by
  simp [reached, h]

theorem reached_of_single (h : s.committedOpens = [o]) :
    s.reached = s.link.target ++ o.revision.staging.target := by
  simp [reached, h]

theorem mem_target {link : ActiveLink W} : w ∈ link.target ↔ link = .workspace w := by
  cases link <;> simp [ActiveLink.target, eq_comm]

theorem committedOpens_of_pending (h : s.pendingOpens = 0) : s.committedOpens = [] := by
  simp only [pendingOpens, Nat.add_eq_zero_iff, List.length_eq_zero_iff] at h
  simp [committedOpens, h.1.2, h.2]

theorem committed_cases (h : s.Exclusive) : s.committedOpens = [] ∨ ∃ o, s.committedOpens = [o] := by
  have hflag := s.opening.toNat_le
  have hle : s.committedOpens.length ≤ s.queuedOpens.length + s.trackedOpens.length := by
    rw [← List.length_append]
    exact List.length_filter_le _ _
  simp only [Exclusive, pendingOpens] at h
  rcases Nat.eq_zero_or_pos s.committedOpens.length with hzero | hpos
  · exact .inl (List.length_eq_zero_iff.mp hzero)
  · exact .inr (List.length_eq_one_iff.mp (by omega))

/-- The open that the worker has is the only one. -/
theorem alone_of_queue (h : s.Exclusive) (hq : s.queue = .programOpen o :: rest) :
    opens rest = [] ∧ s.trackedOpens = [] := by
  have hflag := s.opening.toNat_le
  simp only [Exclusive, pendingOpens, queuedOpens_cons hq, List.length_cons] at h
  exact ⟨List.length_eq_zero_iff.mp (by omega), List.length_eq_zero_iff.mp (by omega)⟩

/-- The open that LinuxCNC is to answer next is the only one. -/
theorem alone_of_tracked (h : s.Exclusive) (ht : s.tracked = .programOpen o :: rest) :
    opens rest = [] ∧ s.queuedOpens = [] := by
  have hflag := s.opening.toNat_le
  simp only [Exclusive, pendingOpens, trackedOpens_cons ht, List.length_cons] at h
  exact ⟨List.length_eq_zero_iff.mp (by omega), List.length_eq_zero_iff.mp (by omega)⟩

theorem linked_startup [DecidableEq W] (h : s.Startup) : s.Linked := by
  have hnone : s.committedOpens = [] := by
    simp [committedOpens, queuedOpens, trackedOpens, h.queue, h.tracked]
  refine ⟨by simp [hnone], by simp [queuedOpens, h.queue], by simp [trackedOpens, h.tracked], by simp [h.active],
    fun _ _ => ?_, by simp [h.status], by simp [h.status], fun w hw => ?_⟩
  · rw [resting_of_none hnone]
    exact h.link
  · rw [reached_of_none hnone, mem_target] at hw
    rcases h.link with hempty | ⟨v, hv, hlink⟩
    · cases hempty.symm.trans hw
    · obtain rfl : v = w := by simpa [hlink] using hw
      have hleases := h.leases v
      rw [if_pos hv] at hleases
      cases hstored : s.leases v with
      | none => simp [hstored] at hleases
      | some n => rfl

/-- A step that leaves the link, the transactions and what it rests on alone, and removes nothing behind it. -/
theorem Linked.congr (h : s.Linked) (hlink : s'.link = s.link) (hcommitted : s'.committedOpens = s.committedOpens)
    (hqueued : ∀ o ∈ s'.queuedOpens,
      o.revision = ⟨.workspace o.workspace, .staged⟩ ∨ o.revision.state = .committed)
    (htracked : ∀ o ∈ s'.trackedOpens, o.revision.state = .committed) (hactive : s'.active = s.active)
    (hrecovered : s'.recovered = s.recovered) (hstatus : s'.status = s.status)
    (hleases : ∀ w ∈ s.reached, (s.leases w).isSome → (s'.leases w).isSome) : s'.Linked := by
  have hresting : s'.resting = s.resting := by simp only [resting, hcommitted, hlink]
  have hreached : s'.reached = s.reached := by simp only [reached, hcommitted, hlink]
  refine ⟨?_, hqueued, htracked, ?_, ?_, ?_, ?_, fun w hw => ?_⟩
  · rw [hcommitted, hlink]
    exact h.committed
  · rw [hactive, hresting]
    exact h.active
  · rw [hactive, hrecovered, hstatus, hresting]
    exact h.rest
  · rw [hactive, hstatus, hresting]
    exact h.unreleased
  · rw [hactive, hstatus]
    exact h.clearing
  · rw [hreached] at hw
    exact hleases w hw (h.stored w hw)

/-- A state without a committed open whose link is where it rested before. -/
theorem Linked.rolledBack (h : s.Linked) (hnone : s'.committedOpens = []) (hlink : s'.link = s.resting)
    (hqueued : ∀ o ∈ s'.queuedOpens, o ∈ s.queuedOpens) (htracked : ∀ o ∈ s'.trackedOpens, o ∈ s.trackedOpens)
    (hactive : s'.active = s.active) (hrecovered : s'.recovered = s.recovered) (hstatus : s'.status = s.status)
    (hleases : s'.leases = s.leases) : s'.Linked := by
  have hresting : s'.resting = s.resting := (resting_of_none hnone).trans hlink
  have hbehind : ∀ w, s.resting = .workspace w → w ∈ s.reached := by
    intro w hw
    unfold resting at hw
    unfold reached
    split at hw
    · exact List.mem_append_left _ (mem_target.mpr hw)
    · next o rest heq =>
      rw [heq, List.flatMap_cons]
      exact List.mem_append_right _ (List.mem_append_left _ (mem_target.mpr hw))
  refine ⟨by simp [hnone], fun o ho => h.queued o (hqueued o ho), fun o ho => h.tracked o (htracked o ho),
    ?_, ?_, ?_, ?_, fun w hw => ?_⟩
  · rw [hactive, hresting]
    exact h.active
  · rw [hactive, hrecovered, hstatus, hresting]
    exact h.rest
  · rw [hactive, hstatus, hresting]
    exact h.unreleased
  · rw [hactive, hstatus]
    exact h.clearing
  · rw [reached_of_none hnone, mem_target] at hw
    rw [hleases]
    exact h.stored w (hbehind w (hlink ▸ hw))

theorem committedOpens_queue (h : s.Exclusive) (hq : s.queue = .programOpen o :: rest) :
    s.committedOpens = [o].filter (·.revision.state = .committed) := by
  obtain ⟨hrest, htracked⟩ := alone_of_queue h hq
  rw [committedOpens, queuedOpens_cons hq, htracked, hrest, List.append_nil]

theorem committedOpens_tracked (h : s.Exclusive) (ht : s.tracked = .programOpen o :: rest) :
    s.committedOpens = [o].filter (·.revision.state = .committed) := by
  obtain ⟨hrest, hqueued⟩ := alone_of_tracked h ht
  rw [committedOpens, trackedOpens_cons ht, hqueued, hrest, List.nil_append]

variable [DecidableEq W]

theorem Accounted.leased_queued (h : s.Accounted) (ho : o ∈ s.queuedOpens) : 0 < (s.leases o.workspace).getD 0 := by
  have hpos : 0 < s.queuedOpens.countP (OpenCommand.holds o.workspace) :=
    List.countP_pos_iff.mpr ⟨o, ho, by simp [OpenCommand.holds, h.queued o ho]⟩
  rw [h.exact, held]
  omega

theorem Accounted.leased_tracked (h : s.Accounted) (ho : o ∈ s.trackedOpens) :
    0 < (s.leases o.workspace).getD 0 := by
  have hpos : 0 < s.trackedOpens.countP (OpenCommand.holds o.workspace) :=
    List.countP_pos_iff.mpr ⟨o, ho, by simp [OpenCommand.holds, h.tracked o ho]⟩
  rw [h.exact, held]
  omega

/-- The active workspace and a recovered one are leased. -/
theorem Accounted.leased (h : s.Accounted) (hw : s.active = some w ∨ w ∈ s.recovered) :
    0 < (s.leases w).getD 0 := by
  rw [h.exact w, held]
  rcases hw with hw | hw
  · simp only [hw, beq_self_eq_true, Bool.toNat_true]
    omega
  · simp only [List.contains_iff_mem.mpr hw, Bool.toNat_true]
    omega

omit [DecidableEq W] in
theorem isSome_of_leased {leases : W → Option ℕ} (h : 0 < (leases w).getD 0) : (leases w).isSome := by
  cases hw : leases w with
  | none => simp [hw] at h
  | some n => rfl

section

variable (h : s.Linked) (hx : s.Exclusive)

include h hx

/-- While the status thread is idle, nothing that can be behind the link is without a lease. -/
theorem Linked.leased (haccounted : s.Accounted) (hidle : s.status = .idle) (hw : w ∈ s.reached) :
    0 < (s.leases w).getD 0 := by
  have hresting : s.resting = .workspace w → 0 < (s.leases w).getD 0 := by
    intro hw
    cases hactive : s.active with
    | some v =>
      obtain rfl : v = w := by simpa [h.active v hactive] using hw
      exact haccounted.leased (.inl hactive)
    | none =>
      rcases h.rest hidle hactive with hempty | ⟨v, hv, hrest⟩
      · cases hempty.symm.trans hw
      · obtain rfl : v = w := by simpa [hrest] using hw
        exact haccounted.leased (.inr hv)
  rcases committed_cases hx with hnone | ⟨o, hsingle⟩
  · rw [reached_of_none hnone, mem_target] at hw
    exact hresting ((resting_of_none hnone).trans hw)
  · rw [reached_of_single hsingle, List.mem_append, mem_target, mem_target] at hw
    rcases hw with hlink | hstaging
    · have ho : o ∈ s.committedOpens := by simp [hsingle]
      obtain rfl : o.workspace = w := by simpa [h.committed o ho] using hlink
      rcases List.mem_append.mp (List.mem_filter.mp ho).1 with hqueued | htracked
      · exact haccounted.leased_queued hqueued
      · exact haccounted.leased_tracked htracked
    · refine hresting ?_
      simpa only [resting, hsingle] using hstaging

theorem linked_prepareOpen (haccounted : s.Accounted) (hq : s.queue = .programOpen o :: rest)
    (hs : o.revision.state = .staged) : (s.prepareOpen o rest).Linked := by
  obtain ⟨hrest, htracked⟩ := alone_of_queue hx hq
  have hmem : o ∈ s.queuedOpens := by simp [queuedOpens_cons hq]
  have hrevision : o.revision = ⟨.workspace o.workspace, .staged⟩ :=
    (h.queued o hmem).resolve_right (by simp [hs])
  have hnone : s.committedOpens = [] := by simp [committedOpens_queue hx hq, hs]
  have htracked' : opens s.tracked = [] := htracked
  have hlink : (s.prepareOpen o rest).link = .workspace o.workspace := by
    simp [prepareOpen, DirectoryTransaction.commit, hrevision]
  have hsingle : (s.prepareOpen o rest).committedOpens = [{ o with revision := ⟨s.link, .committed⟩ }] := by
    simp [prepareOpen, committedOpens, queuedOpens, trackedOpens, hrest, htracked', DirectoryTransaction.commit,
      hrevision]
  have hresting : (s.prepareOpen o rest).resting = s.resting := by
    rw [resting_of_none hnone]
    simp only [resting, hsingle]
  refine ⟨?_, ?_, h.tracked, ?_, ?_, ?_, h.clearing, fun w hw => ?_⟩
  · simp [hsingle, hlink]
  · simp [prepareOpen, queuedOpens, hrest, DirectoryTransaction.commit, hrevision]
  · rw [hresting]
    exact h.active
  · rw [hresting]
    exact h.rest
  · rw [hresting]
    exact h.unreleased
  · rw [reached_of_single hsingle, List.mem_append, mem_target, mem_target] at hw
    rcases hw with hbehind | hstaging
    · cases hlink.symm.trans hbehind
      exact isSome_of_leased (haccounted.leased_queued hmem)
    · exact h.stored w (by rwa [reached_of_none hnone, mem_target])

omit [DecidableEq W] in
theorem linked_workOpen (hq : s.queue = .programOpen o :: rest) {outcome : WorkerOutcome}
    (hs : o.revision.state = .staged ↔ outcome = .cancelled) :
    ({ s.workOpen o outcome with queue := rest }).Linked := by
  obtain ⟨hrest, htracked⟩ := alone_of_queue hx hq
  have htracked' : opens s.tracked = [] := htracked
  have hcommitted := committedOpens_queue hx hq
  have hmem : o ∈ s.queuedOpens := by simp [queuedOpens_cons hq]
  have hrolled : ∀ link resolved, link = s.resting →
      ({ s with link, resolved, queue := rest } : ProgramState W).Linked := by
    intro link resolved hlink
    refine h.rolledBack ?_ hlink (by simp [queuedOpens, hrest]) (fun o ho => ho) rfl rfl rfl rfl
    simp [committedOpens, queuedOpens, trackedOpens, hrest, htracked']
  cases outcome with
  | cancelled =>
    have hstaged : o.revision.state = .staged := hs.mpr rfl
    refine hrolled _ _ ?_
    rw [resting_of_none (by simp [hcommitted, hstaged])]
    simp [workOpen, DirectoryTransaction.rollback, hstaged]
  | failed =>
    have hstate : o.revision.state = .committed :=
      (h.queued o hmem).resolve_left fun heq => by simp [heq] at hs
    refine hrolled _ _ ?_
    simp [resting, hcommitted, hstate, workOpen, DirectoryTransaction.rollback]
  | tracked =>
    have hstate : o.revision.state = .committed :=
      (h.queued o hmem).resolve_left fun heq => by simp [heq] at hs
    refine h.congr rfl ?_ (by simp [queuedOpens, hrest]) ?_ rfl rfl rfl fun _ _ hsome => hsome
    · rw [hcommitted]
      simp [committedOpens, queuedOpens, trackedOpens, workOpen, hrest, htracked']
    · simp [trackedOpens, workOpen, htracked', hstate]

omit [DecidableEq W] in
theorem linked_openFailed (ht : s.tracked = .programOpen o :: rest) :
    ({ s.openFailed o with tracked := rest }).Linked := by
  obtain ⟨hrest, hqueued⟩ := alone_of_tracked hx ht
  have hqueued' : opens s.queue = [] := hqueued
  have hstate : o.revision.state = .committed := h.tracked o (by simp [trackedOpens_cons ht])
  refine h.rolledBack ?_ ?_ (fun o ho => ho) (by simp [trackedOpens, hrest]) rfl rfl rfl rfl
  · simp [committedOpens, queuedOpens, trackedOpens, openFailed, hrest, hqueued']
  · simp [resting, committedOpens_tracked hx ht, hstate, openFailed, DirectoryTransaction.rollback]

end

@[simp]
theorem isSome_pinEntry (leases : W → Option ℕ) (v w : W) : (pinEntry leases v w).isSome = (leases w).isSome := by
  by_cases hw : w = v
  · subst hw
    simp [pinEntry]
  · simp [pinEntry, hw]

@[simp]
theorem isSome_unpinEntry (leases : W → Option ℕ) (v w : W) : (unpinEntry leases v w).isSome = (leases w).isSome := by
  by_cases hw : w = v
  · subst hw
    simp [unpinEntry]
  · simp [unpinEntry, hw]

@[simp]
theorem isSome_releaseRecoveredLeases (recovered : List W) (leases : W → Option ℕ) (w : W) :
    (releaseRecoveredLeases recovered leases w).isSome = (leases w).isSome := by
  unfold releaseRecoveredLeases
  split_ifs <;> simp

@[simp]
theorem isSome_releaseActive (s : ProgramState W) (w : W) :
    (s.releaseActive.leases w).isSome = (s.leases w).isSome := by
  cases hactive : s.active <;> simp [releaseActive, hactive]

theorem linked_openCompleted (h : s.Linked) (hx : s.Exclusive) (ht : s.tracked = .programOpen o :: rest) :
    ({ s.openCompleted o with tracked := rest }).Linked := by
  obtain ⟨hrest, hqueued⟩ := alone_of_tracked hx ht
  have hqueued' : opens s.queue = [] := hqueued
  have hstate : o.revision.state = .committed := h.tracked o (by simp [trackedOpens_cons ht])
  have hlink : s.link = .workspace o.workspace := h.committed o (by simp [committedOpens_tracked hx ht, hstate])
  obtain ⟨hlink', hactive, hstatus, hleases⟩ : (s.openCompleted o).link = s.link ∧
      (s.openCompleted o).active = some o.workspace ∧ (s.openCompleted o).status = .idle ∧
      ∀ w, ((s.openCompleted o).leases w).isSome = (s.leases w).isSome := by
    by_cases heq : s.active = some o.workspace
    · simp [openCompleted, heq]
    · simp only [openCompleted, heq, if_false, isSome_releaseActive, implies_true, and_true]
      rfl
  have hnone : ({ s.openCompleted o with tracked := rest }).committedOpens = [] := by
    simp [committedOpens, queuedOpens, trackedOpens, openCompleted_queue, hrest, hqueued']
  refine ⟨by simp [hnone], by simp [queuedOpens, openCompleted_queue, hqueued'], by simp [trackedOpens, hrest],
    fun w hw => ?_, fun _ hno => ?_, fun hobserving => ?_, fun _ hclearing => ?_, fun w hw => ?_⟩
  · rw [resting_of_none hnone, ← Option.some.inj (hactive.symm.trans hw)]
    exact hlink'.trans hlink
  · cases hactive.symm.trans hno
  · cases hstatus.symm.trans hobserving
  · cases hstatus.symm.trans hclearing
  · rw [reached_of_none hnone, mem_target] at hw
    exact (hleases w).trans (h.stored w (List.mem_append_left _ (mem_target.mpr (hlink'.symm.trans hw))))

/-- Without its active workspace, and with the status thread about to clear it, the link may rest anywhere. -/
theorem linked_releaseActive (h : s.Linked) {status : StatusThread}
    (hstatus : status = .idle ∨ status = .observing false → s.active = none ∧ s.resting = .empty) :
    ({ s.releaseActive with status }).Linked := by
  refine ⟨h.committed, h.queued, h.tracked, fun w hw => ?_, fun hidle _ => .inl (hstatus (.inl hidle)).2,
    fun hobserving _ => (hstatus (.inr hobserving)).2, fun _ _ => rfl, fun w hw => ?_⟩
  · simp [releaseActive] at hw
  · exact (isSome_releaseActive s w).trans (h.stored w hw)

theorem linked_releaseRecovered (h : s.Linked) {status : StatusThread} (hidle : status ≠ .idle)
    (hclearing : ∀ locked, status ≠ .clearing locked)
    (hstatus : status = .observing false → s.active = none → s.resting = .empty) :
    ({ s.releaseRecovered with status }).Linked := by
  refine ⟨h.committed, h.queued, h.tracked, h.active, fun heq => absurd heq hidle, hstatus,
    fun locked heq => absurd heq (hclearing locked), fun w hw => ?_⟩
  exact (isSome_releaseRecoveredLeases _ _ w).trans (h.stored w hw)

omit [DecidableEq W] in
theorem linked_dropClose (h : s.Linked) (ht : s.tracked = .programClose :: rest) :
    ({ s with tracked := rest }).Linked := by
  have hsame : opens rest = s.trackedOpens := by simp [trackedOpens, ht]
  refine h.congr rfl ?_ h.queued ?_ rfl rfl rfl fun _ _ hsome => hsome
  · simp only [committedOpens, queuedOpens, trackedOpens, hsame]
  · simp only [trackedOpens, hsame]
    exact h.tracked

end ProgramState

end LinuxcncCtrl
