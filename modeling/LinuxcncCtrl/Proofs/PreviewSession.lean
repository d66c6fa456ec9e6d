import LinuxcncCtrl.Sanity.PreviewSession

/-! The preview stream: what a client gets of a preview that is not cancelled, and whether a session that
is closed leaves the parser worker waiting. -/

namespace LinuxcncCtrl

open Lib

variable {O : Type}

namespace PreviewSession

variable {events : List (PreviewEvent O)} {session session' : PreviewSession O} {event : PreviewEvent O}
  {action : PreviewAction}

theorem work_isSome {script : List (PreviewEvent O)}
    (hscript : session.script = event :: script) (hblocked : session.worker ≠ .blocked) :
    session.work.isSome = true := by
  unfold PreviewSession.work
  rw [hscript]
  cases hworker : session.worker with
  | running => dsimp only; split_ifs <;> rfl
  | testing => dsimp only; split_ifs <;> rfl
  | deciding => rfl
  | blocked => exact absurd hworker hblocked
  | notified => rfl

/-- Someone can always go on: a worker that is blocked waits for two batches, and one of them can be
handled or written. -/
theorem Body.advances (h : session.Body events) (hclosing : session.closing = false)
    (hcomplete : ¬ session.Complete) :
    ∃ action, action.advances = true ∧ (session.step action).isSome = true := by
  obtain ⟨-, -, hsteps⟩ := h.flows.live
  cases hposted : session.posted with
  | cons event posted =>
    refine ⟨.posted, rfl, ?_⟩
    simp [PreviewSession.step, hposted, hsteps]
  | nil =>
    cases hactive : session.active with
    | some event =>
      cases hfree : session.mutexFree with
      | true =>
        refine ⟨.writeDone true, rfl, ?_⟩
        simp [PreviewSession.step, hactive, hsteps, hfree]
      | false =>
        -- the worker holds the mutex, so it is not blocked
        have hholds : ¬ (session.worker ≠ .testing ∧ session.worker ≠ .deciding) :=
          of_decide_eq_false hfree
        have hworker : session.worker = .testing ∨ session.worker = .deciding := by
          rwa [not_and_or, not_not, not_not] at hholds
        obtain ⟨operations, rest, hscript⟩ := h.flows.waiting (by
          rintro hrunning
          rcases hworker with hworker | hworker <;> cases hworker.symm.trans hrunning)
        refine ⟨.work, rfl, work_isSome hscript ?_⟩
        intro hblocked
        rcases hworker with hworker | hworker <;> cases hworker.symm.trans hblocked
    | none =>
      have hqueue := h.pumped hclosing hactive
      cases hscript : session.script with
      | nil => exact absurd ⟨hscript, hposted, hqueue, hactive⟩ hcomplete
      | cons event script =>
        refine ⟨.work, rfl, work_isSome hscript ?_⟩
        intro hblocked
        have hcounted := h.flows.counted
        unfold outstanding at hcounted
        rw [h.flows.full (.inr hblocked), hposted, hqueue, hactive] at hcounted
        cases hcounted

theorem pumpPreview_remaining (session : PreviewSession O) :
    session.pumpPreview.remaining ≤ session.remaining := by
  unfold pumpPreview
  split
  · exact Nat.le_refl _
  · next event queue hqueue =>
    split_ifs with hbusy
    · exact Nat.le_refl _
    · have hidle : session.active = none :=
        Option.not_isSome_iff_eq_none.mp (not_or.mp hbusy).1
      unfold remaining
      rw [hqueue, hidle]
      simp only [List.length_cons, Option.toList_some, Option.toList_none, List.length_nil]
      omega

theorem enqueuePreview_remaining (session : PreviewSession O) (event : PreviewEvent O) :
    (session.enqueuePreview event).remaining ≤ session.remaining + 5 := by
  unfold enqueuePreview
  dsimp only
  split_ifs with hclosed hprogress
  · exact Nat.le_add_right _ _
  · obtain ⟨-, last, hlast, -⟩ := hprogress
    obtain ⟨queue, hqueue⟩ := List.getLast?_eq_some_iff.mp hlast
    refine Nat.le_trans (pumpPreview_remaining _) ?_
    unfold remaining
    rw [hqueue, List.dropLast_concat]
    simp
  · refine Nat.le_trans (pumpPreview_remaining _) ?_
    unfold remaining
    simp only [List.length_append, List.length_singleton]
    omega

theorem ended_remaining (hactive : session.active = some event) :
    (session.ended event).remaining < session.remaining := by
  unfold ended notifyAll remaining
  rw [hactive]
  cases session.worker <;> split_ifs <;> simp

theorem onWrite_remaining (hactive : session.active = some event) :
    (session.onWrite event).remaining < session.remaining := by
  rw [onWrite_eq]
  split_ifs
  · exact ended_remaining hactive
  · exact Nat.lt_of_le_of_lt (pumpPreview_remaining _) (ended_remaining hactive)

theorem Worked.remaining (h : Worked session session') (hstop : session.flow.stopRequested = false) :
    session'.remaining < session.remaining := by
  cases h with
  | post hworker hscript _ =>
    unfold PreviewSession.remaining
    rw [hworker, hscript]
    simp only [List.length_append, List.length_cons, List.length_nil]
    omega
  | lock hworker =>
    unfold PreviewSession.remaining
    rw [hworker]
    exact Nat.lt_succ_self _
  | stopped _ hrequested => exact absurd (hrequested.symm.trans hstop) (by decide)
  | admitted hworker hscript _ =>
    unfold PreviewSession.remaining
    rw [hworker, hscript]
    simp only [List.length_append, List.length_cons, List.length_nil]
    omega
  | full hworker =>
    unfold PreviewSession.remaining
    rw [hworker]
    exact Nat.lt_succ_self _
  | block hworker =>
    unfold PreviewSession.remaining
    rw [hworker]
    exact Nat.lt_succ_self _
  | relock hworker =>
    unfold PreviewSession.remaining
    rw [hworker]
    exact Nat.lt_succ_self _

theorem Stepped.remaining (h : Stepped session action session')
    (hlive : session.Live) (hadvances : action.advances = true) :
    session'.remaining < session.remaining := by
  cases h with
  | work hworked => exact hworked.remaining hlive.1
  | posted hposted =>
    refine Nat.lt_of_le_of_lt (enqueuePreview_remaining _ _) ?_
    unfold PreviewSession.remaining
    rw [hposted]
    simp only [List.length_cons]
    omega
  | written hactive => exact onWrite_remaining hactive
  | failing hstays => exact absurd (hadvances.symm.trans hstays) (by decide)
  | _ => cases hadvances

section Written

variable {limits : PreviewLimits O} {program : PreviewProgram O}

theorem Body.streams (hbatch : 0 < limits.batchSize)
    (h : session.Body (previewEvents limits program)) : session.Streams limits program := by
  have hflows := h.flows
  have hsent : session.processed <+: previewEvents limits program := by
    refine ⟨session.posted ++ session.script, ?_⟩
    rw [← List.append_assoc]
    exact hflows.order
  refine ⟨fun operations hmem => ?_, ?_, ⟨session.processed, hsent, hflows.coalesced⟩,
    hflows.counted ▸ hflows.two⟩
  · have hsubset := hsent.subset (hflows.coalesced.mem (List.mem_append_left _ hmem))
    obtain ⟨hnonempty, hcount, hbytes⟩ := previewEvents_fits hbatch hsubset
    exact ⟨hnonempty, hcount, hbytes⟩
  · -- written, written or queued, sent, added
    have hwritten : session.writtenOperations <+:
        (session.written ++ session.queue).flatMap PreviewEvent.operations := by
      rw [List.flatMap_append]
      exact List.prefix_append _ _
    have hprocessed : session.processed.flatMap PreviewEvent.operations <+:
        (previewEvents limits program).flatMap PreviewEvent.operations := by
      obtain ⟨rest, hrest⟩ := hsent
      rw [← hrest, List.flatMap_append]
      exact List.prefix_append _ _
    rw [hflows.coalesced.operations_eq] at hwritten
    exact (hwritten.trans hprocessed).trans (previewEvents_operations hbatch program)

theorem Body.delivered (hbatch : 0 < limits.batchSize)
    (h : session.Body (previewEvents limits program)) (hcomplete : session.Complete) :
    session.Delivered limits program := by
  obtain ⟨hscript, hposted, hqueue, -⟩ := hcomplete
  have hcoalesced : PreviewEvent.Coalesced (previewEvents limits program) session.written := by
    have hcoalesced := h.flows.coalesced
    have horder := h.flows.order
    rw [hposted, hscript, List.append_nil, List.append_nil] at horder
    rwa [hqueue, List.append_nil, horder] at hcoalesced
  refine ⟨hcoalesced, (previewEvents_terminated hbatch program).coalesced hcoalesced, fun count hlast => ?_⟩
  rw [hcoalesced.getLast?_eq] at hlast
  obtain ⟨hall, hcount⟩ := previewEvents_summary hbatch hlast
  rw [← hcoalesced.operations_eq] at hall
  exact ⟨hall, hcount.trans (congrArg List.length hall.symm)⟩

/-- A preview that is not cancelled is streamed in order and within its bounds, and comes to its end:
until then something can always be done, and whatever is done leaves less to do. -/
theorem preview_streamed (hbatch : 0 < limits.batchSize) {actions : List PreviewAction}
    (hrun : Run PreviewSession.step (start limits program) actions session) (hlive : session.Live) :
    session.Streams limits program ∧
      (session.Complete → session.Delivered limits program) ∧
      (session.closing = false → ¬ session.Complete →
        ∃ action, action.advances = true ∧ (session.step action).isSome = true) ∧
      ∀ action session', action.advances = true → session.step action = some session' →
        session'.remaining < session.remaining := by
  have hbody := body_of_run hbatch hrun hlive
  refine ⟨hbody.streams hbatch, hbody.delivered hbatch, hbody.advances, ?_⟩
  intro action session' hadvances hstep
  exact (stepped hstep).remaining hlive hadvances

end Written

def pairs : PreviewLimits ℕ := ⟨2, fun _ => 100, fun operations => 100 * operations.length⟩

def sevenMoves : PreviewProgram ℕ :=
  { totalBytes := 100
    steps :=
      [{ operations := [1, 2], reported := some 20 }, { operations := [3, 4], reported := some 40 },
        { operations := [], reported := some 60 }, { operations := [5, 6] }]
    closing := { operations := [7] } }

/-- The worker has to wait with the third and with the last batch, and the report at 40 bytes is replaced
in the queue. -/
def sevenMovesActions : List PreviewAction :=
  List.replicate 10 .work ++ List.replicate 5 .posted ++ [.writeDone true] ++ List.replicate 5 .work ++
    [.posted] ++ List.replicate 2 (.writeDone true) ++ List.replicate 4 .work ++
    List.replicate 3 .posted ++ List.replicate 5 (.writeDone true)

def sevenMovesWritten : PreviewSession ℕ :=
  { script := []
    processed := previewEvents pairs sevenMoves
    written := [.batch [1, 2], .progress 20 100 2, .batch [3, 4], .progress 60 100 4, .batch [5, 6],
      .batch [7], .progress 100 100 7, .summary 7] }

theorem preview_streamed_sevenMoves :
    Run PreviewSession.step (start pairs sevenMoves) sevenMovesActions sevenMovesWritten ∧
      sevenMovesWritten.Delivered pairs sevenMoves := by
  have hrun : Run PreviewSession.step (start pairs sevenMoves) sevenMovesActions sevenMovesWritten :=
    .of_exec (by decide +kernel)
  refine ⟨hrun, ?_⟩
  exact (preview_streamed (by decide) hrun ⟨rfl, rfl, rfl⟩).2.1 ⟨rfl, rfl, rfl, rfl⟩

/-- One operation has been added when the interpreter fails. -/
def failedMove : PreviewProgram ℕ :=
  { totalBytes := 100
    steps := [{ operations := [1] }]
    ending := some ⟨.interpreter, "Bad character used", some 2⟩ }

def failedMoveWritten : PreviewSession ℕ :=
  { script := []
    processed := previewEvents pairs failedMove
    written := [.error ⟨.interpreter, "Bad character used", some 2⟩] }

/-- The operation was still waiting for its batch to be filled, and is not sent. -/
theorem preview_error_drops_operation :
    Run PreviewSession.step (start pairs failedMove) [.work, .posted, .writeDone true]
        failedMoveWritten ∧
      failedMoveWritten.Live ∧ failedMoveWritten.Complete ∧
      failedMoveWritten.writtenOperations = [] ∧ addedOperations pairs failedMove = [1] :=
  ⟨.of_exec (by decide +kernel), ⟨rfl, rfl, rfl⟩, ⟨rfl, rfl, rfl, rfl⟩, rfl, by decide +kernel⟩

/-- The forms that the rest of a `stop` or `fail` can have. -/
def closeShapes : List (List CloseStep) :=
  [[], [.requestStop, .notifyAll, .fail], [.notifyAll, .fail], [.fail],
    [.requestStop, .notifyAll, .clear], [.notifyAll, .clear], [.clear]]

/-- A worker that has been asked to stop and is still going to block, or is blocked, has a notification
to come. -/
structure Noticed (session : PreviewSession O) : Prop where
  shape : session.closeSteps ∈ closeShapes
  notified : session.flow.stopRequested = true →
    session.worker = .deciding ∨ session.worker = .blocked → .notifyAll ∈ session.closeSteps

theorem closeShapes_tail {step : CloseStep} {closeSteps : List CloseStep}
    (h : step :: closeSteps ∈ closeShapes) :
    closeSteps ∈ closeShapes ∧ (step = .requestStop → .notifyAll ∈ closeSteps) ∧
      (step = .fail → closeSteps = []) := by
  simp only [closeShapes, List.mem_cons, List.not_mem_nil, or_false, List.cons.injEq, reduceCtorEq,
    false_or] at h ⊢
  rcases h with ⟨rfl, rfl⟩ | ⟨rfl, rfl⟩ | ⟨rfl, rfl⟩ | ⟨rfl, rfl⟩ | ⟨rfl, rfl⟩ | ⟨rfl, rfl⟩ <;> simp

/-- The other parts of the session have moved. -/
theorem Noticed.kept (h : session.Noticed)
    (hstop : session'.flow.stopRequested = session.flow.stopRequested)
    (hsteps : session'.closeSteps = session.closeSteps)
    (hworker : session'.worker = .deciding ∨ session'.worker = .blocked →
      session.worker = .deciding ∨ session.worker = .blocked) : session'.Noticed := by
  refine ⟨hsteps ▸ h.shape, fun hrequested hwaits => ?_⟩
  rw [hsteps]
  exact h.notified (hstop.symm.trans hrequested) (hworker hwaits)

theorem Noticed.worked (h : session.Noticed) (hworked : Worked session session') : session'.Noticed := by
  have hmoves : ∀ {worker : PreviewWorker}, worker ≠ .deciding → worker ≠ .blocked →
      worker = .deciding ∨ worker = .blocked →
      session.worker = .deciding ∨ session.worker = .blocked := by
    intro worker hdeciding hblocked hwaits
    rcases hwaits with hwaits | hwaits
    · exact absurd hwaits hdeciding
    · exact absurd hwaits hblocked
  cases hworked with
  | post => exact h.kept rfl rfl id
  | lock => exact h.kept rfl rfl (hmoves nofun nofun)
  | stopped => exact h.kept rfl rfl (hmoves nofun nofun)
  | admitted => exact h.kept rfl rfl (hmoves nofun nofun)
  | full _ hstop => exact ⟨h.shape, fun hrequested => absurd hrequested hstop⟩
  | block hworker => exact h.kept rfl rfl fun _ => .inl hworker
  | relock => exact h.kept rfl rfl (hmoves nofun nofun)

theorem Noticed.step (h : session.Noticed)
    (hnotices : session.Notices action) (hstepped : Stepped session action session') :
    session'.Noticed := by
  -- what is taken off the list is not the notification
  have htail : ∀ {step : CloseStep} {closeSteps : List CloseStep},
      session.closeSteps = step :: closeSteps → step ≠ .notifyAll →
      session.flow.stopRequested = true → session.worker = .deciding ∨ session.worker = .blocked →
      .notifyAll ∈ closeSteps := by
    intro step closeSteps hsteps hother hrequested hwaits
    have hmem := h.notified hrequested hwaits
    rw [hsteps] at hmem
    exact (List.mem_cons.mp hmem).resolve_left (Ne.symm hother)
  cases hstepped with
  | work hworked => exact h.worked hworked
  | abandon => exact h.kept rfl rfl id
  | posted =>
    obtain ⟨hflow, -, hsteps, hworker⟩ := enqueuePreview_fields { session with posted := _ } _
    exact h.kept (congrArg _ hflow) hsteps (by rw [hworker]; exact id)
  | written =>
    obtain ⟨hflow, -, hsteps, hworker⟩ := onWrite_fields session _
    refine h.kept hflow hsteps fun hwaits => ?_
    rcases hworker with hworker | hworker
    · rwa [hworker] at hwaits
    · rw [hworker] at hwaits
      rcases hwaits with hwaits | hwaits <;> cases hwaits
  | failing _ hsteps =>
    refine ⟨by simp [closeShapes], fun hrequested hwaits => ?_⟩
    have hmem := h.notified hrequested hwaits
    rw [hsteps] at hmem
    cases hmem
  | reading => exact h.kept rfl rfl id
  | stopping => exact ⟨by simp [closeShapes], fun _ _ => List.mem_cons_of_mem _ List.mem_cons_self⟩
  | requestStop hsteps =>
    obtain ⟨hshape, hnext, -⟩ := closeShapes_tail (hsteps ▸ h.shape)
    exact ⟨hshape, fun _ _ => hnext rfl⟩
  | notifyAll hsteps =>
    refine ⟨(closeShapes_tail (hsteps ▸ h.shape)).1, fun _ hwaits => ?_⟩
    have hnotDeciding := hnotices rfl (by rw [hsteps]; rfl)
    unfold PreviewSession.notifyAll at hwaits
    split_ifs at hwaits with hblocked
    · rcases hwaits with hwaits | hwaits <;> cases hwaits
    · rcases hwaits with hwaits | hwaits
      · exact absurd hwaits hnotDeciding
      · exact absurd hwaits hblocked
  | fail hsteps =>
    obtain ⟨-, -, hlast⟩ := closeShapes_tail (hsteps ▸ h.shape)
    rw [hlast rfl]
    exact ⟨by simp [closeShapes], fun _ _ => List.mem_cons_of_mem _ List.mem_cons_self⟩
  | failed hsteps =>
    exact ⟨(closeShapes_tail (hsteps ▸ h.shape)).1, htail hsteps (by decide)⟩
  | clear hsteps =>
    exact ⟨(closeShapes_tail (hsteps ▸ h.shape)).1, htail hsteps (by decide)⟩

/-- A session that is closed does not leave the worker waiting, when no notification of the closing falls
between the worker's test and its block. -/
theorem preview_worker_woken {limits : PreviewLimits O} {program : PreviewProgram O}
    {actions : List PreviewAction}
    (hrun : RunWhere PreviewSession.step Notices (start limits program) actions session) :
    ¬ session.Abandoned := by
  have hnoticed : session.Noticed := by
    apply hrun.invariant ⟨by simp [start, closeShapes], nofun⟩
    intro before action after hnotices hstep hbefore
    exact hbefore.step hnotices (stepped hstep)
  rintro ⟨hstop, hsteps, hblocked⟩
  have hmem := hnoticed.notified hstop (.inr hblocked)
  rw [hsteps] at hmem
  cases hmem

/-- The session is stopped while the worker waits with the third batch; the worker sees it and gives
up. -/
def stoppedActions : List PreviewAction :=
  List.replicate 10 .work ++ [.stop] ++ List.replicate 6 .close ++ List.replicate 2 .work

def stopped : PreviewSession ℕ :=
  (execWhere PreviewSession.step Notices (start pairs sevenMoves) stoppedActions).getD
    (start pairs sevenMoves)

theorem preview_worker_woken_stopped :
    RunWhere PreviewSession.step Notices (start pairs sevenMoves) stoppedActions stopped ∧
      stopped.flow.stopRequested = true ∧ ¬ stopped.Abandoned := by
  have hrun : RunWhere PreviewSession.step Notices (start pairs sevenMoves) stoppedActions stopped :=
    .getD_exec (by decide +kernel)
  exact ⟨hrun, by decide +kernel, preview_worker_woken hrun⟩

/-- Two batches are outstanding, and the worker has seen that there is no room for the third. Then all
of `stop` and `fail` runs, and only now the worker blocks: no write will complete any more. -/
def abandonedActions : List PreviewAction :=
  List.replicate 9 .work ++ [.stop] ++ List.replicate 6 .close ++ [.work]

def abandoned : PreviewSession ℕ :=
  { script := [.batch [5, 6], .batch [7], .progress 100 100 7, .summary 7]
    worker := .blocked
    flow := ⟨true, 2⟩
    posted := [.batch [1, 2], .progress 20 100 2, .batch [3, 4], .progress 40 100 4,
      .progress 60 100 4]
    closed := true }

theorem preview_worker_abandoned :
    Run PreviewSession.step (start pairs sevenMoves) abandonedActions abandoned ∧
      abandoned.Abandoned :=
  ⟨.of_exec (by decide +kernel), rfl, rfl, rfl⟩

end PreviewSession

end LinuxcncCtrl
