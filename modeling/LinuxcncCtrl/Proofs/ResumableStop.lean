import LinuxcncCtrl.Sanity.ResumableStop

/-! A Stop holds until the next Run, Resume or Step, as long as no Stop is accepted while an earlier
resume is latched. A repeated Stop in STOPPING is answered with success and leaves the latch, so that
the earlier resume runs once motion has stopped. -/

namespace LinuxcncCtrl

open Lib

namespace StopSystem

variable {D : Type} [Zero D] [Add D] [LT D] [DecidableLT D] [LE D] [DecidableLE D] {spindles : ℕ}

/-- No Stop is accepted in STOPPING with a resume latched. -/
def StopsUnlatched (s : StopSystem D) : StopAction D → Prop
  | .stop inputs _ => s.machine.stopAllowed inputs = true → s.machine.stopState = .stopping →
      s.machine.stopResumeLatched = false
  | _ => True

instance (s : StopSystem D) (a : StopAction D) : Decidable (s.StopsUnlatched a) := by
  cases a <;> dsimp only [StopsUnlatched] <;> infer_instance

structure StopInv (s : StopSystem D) : Prop where
  fenced : Fenced s.events
  holding : stopInForce s.events = true → s.machine.Holding

variable {s : StopSystem D} {s' : StopSystem D}

theorem stopInv_stop {inputs : PlanInputs} {trajStop : ℤ} (h : s.StopInv)
    (hok : s.StopsUnlatched (.stop inputs trajStop))
    (hstep : s.step spindles (.stop inputs trajStop) = some s') : s'.StopInv := by
  cases hstep
  refine ⟨h.fenced.append_quiet fun e he => ?_, fun hforce => ?_⟩
  · rcases List.mem_append.mp he with he | he
    · exact (TaskStop.planStop_quiet he).2
    · rw [List.mem_singleton] at he
      subst he
      split_ifs <;> rfl
  cases hallowed : s.machine.stopAllowed inputs with
  | true => exact TaskStop.planStop_holding hallowed (hok hallowed) trajStop
  | false =>
    -- a refused Stop leaves the machine alone, and the earlier one in force
    rw [TaskStop.planStop_refused hallowed] at hforce ⊢
    exact h.holding (by simpa [record, stopInForce, TaskEvent.force] using hforce)

omit [LE D] [DecidableLE D] in
theorem stopInv_plan (h : s.StopInv) (command : PlanCommand) (motion : MotionInputs D) :
    (s.record (s.machine.emcTaskPlan spindles command motion)).StopInv := by
  obtain ⟨rest, heq, hneutral⟩ := TaskStop.plan_events spindles s.machine command motion
  have hcommand : stopInForce (s.events ++ [.planCommand command]) = false := by
    rw [stopInForce_concat]
    rfl
  have hevents : (s.record (s.machine.emcTaskPlan spindles command motion)).events =
      (s.events ++ [.planCommand command]) ++ rest := by
    simp [record, heq]
  refine ⟨?_, fun hforce => ?_⟩
  · rw [hevents]
    exact (h.fenced.append_quiet (by simp [TaskEvent.restarts])).append_neutral hcommand hneutral
  · rw [hevents, stopInForce_append_neutral _ hneutral, hcommand] at hforce
    exact absurd hforce Bool.false_ne_true

theorem stopInv_progress (h : s.StopInv) (motion : MotionInputs D) :
    (s.record (s.machine.emcTaskStopProgress spindles motion)).StopInv := by
  have hneutral : ∀ e ∈ (s.machine.emcTaskStopProgress spindles motion).2, e.neutral = true :=
    fun e he => TaskStop.progress_neutral he
  have hforce := stopInForce_append_neutral s.events hneutral
  cases hnow : stopInForce s.events with
  | false =>
    refine ⟨h.fenced.append_neutral hnow hneutral, fun hheld => ?_⟩
    rw [record, hforce, hnow] at hheld
    exact absurd hheld Bool.false_ne_true
  | true =>
    obtain ⟨hholding, hquiet⟩ := TaskStop.progress_holding (h.holding hnow) spindles motion
    exact ⟨h.fenced.append_quiet hquiet, fun _ => hholding⟩

omit [Zero D] [Add D] [LT D] [DecidableLT D] [LE D] [DecidableLE D] in
/-- The steps that write no event and leave the machine holding. -/
theorem StopInv.silent (h : s.StopInv) {machine : TaskStop D}
    (hmachine : s.machine.Holding → machine.Holding) : (s.record (machine, [])).StopInv :=
  ⟨by simpa [record] using h.fenced, fun hforce =>
    hmachine (h.holding (by simpa [record] using hforce))⟩

theorem stopInv_step {a : StopAction D} (hok : s.StopsUnlatched a)
    (hstep : s.step spindles a = some s') (h : s.StopInv) : s'.StopInv := by
  cases a with
  | stop inputs trajStop => exact stopInv_stop h hok hstep
  | plan command motion =>
    cases hstep
    exact stopInv_plan h command motion
  | progress motion =>
    cases hstep
    exact stopInv_progress h motion
  | clear =>
    cases hstep
    exact h.silent fun _ => ⟨by simp [TaskStop.emcTaskStopClear], fun _ => rfl⟩
  | orientRequest _ _ | other _ =>
    cases hstep
    exact h.silent id

/-- No output comes back and no motion is resumed between an accepted Stop and the next Run, Resume
or Step. -/
theorem stop_not_undone {s₀ s : StopSystem D} {actions : List (StopAction D)}
    (h : s₀.events = []) (hrun : RunWhere (step spindles) StopsUnlatched s₀ actions s) :
    ∀ before e after, s.events = before ++ e :: after → e.restarts = true → stopInForce before = false := by
  have hstart : s₀.StopInv := ⟨h ▸ fenced_nil, by simp [h, stopInForce]⟩
  exact (hrun.invariant hstart fun _ _ _ => stopInv_step).fenced

def idleStop : StopSystem ℤ where
  machine :=
    { stopSpindles := fun _ => ⟨false, 0, 0, 0, false, 0, 0, 0, 0⟩
      activeSpindleOrientRequests := fun _ => ⟨0, 0, 0⟩ }

/-- An AUTO program with motion in the queue. -/
def runningProgram : PlanInputs := ⟨true, true, false, 1, 0, false⟩

/-- Motion has stopped and the spindle turns, or not. -/
def spindleTurns (turning : Bool) : MotionInputs ℤ where
  stopped := true
  queue := 1
  spindle _ := ⟨turning, if turning then 1000 else 0, 1, 0, .none⟩
  mist := false
  flood := false
  etime := 0

/-- A Stop, and a Stop again before the spindle is at rest. -/
theorem stop_not_undone_repeated : ∃ s : StopSystem ℤ,
    RunWhere (step 1) StopsUnlatched idleStop [.stop runningProgram 0, .progress (spindleTurns true),
        .stop runningProgram 0, .progress (spindleTurns false)] s ∧
      s.machine.stopState = .stopped ∧ stopInForce s.events = true ∧
      ∀ before e after, s.events = before ++ e :: after → e.restarts = true →
        stopInForce before = false := by
  have hrun : RunWhere (step 1) StopsUnlatched idleStop [.stop runningProgram 0,
      .progress (spindleTurns true), .stop runningProgram 0, .progress (spindleTurns false)] _ :=
    .of_exec rfl
  exact ⟨_, hrun, rfl, rfl, stop_not_undone rfl hrun⟩

/-- Stop, Resume and Stop while the machine is still stopping. Both Stops are accepted. Once the
spindle is at rest the Resume from between them switches it on again. -/
theorem stop_undone_by_earlier_resume : ∃ (s : StopSystem ℤ) (before after : List (TaskEvent ℤ)),
    Run (step 1) idleStop [.stop runningProgram 0, .plan .resume (spindleTurns true),
        .stop runningProgram 0, .progress (spindleTurns true), .progress (spindleTurns false)] s ∧
      s.events = before ++ .issued (.spindleOn 0 1000 1 0) :: after ∧ stopInForce before = true := by
  have hrun : Run (step 1) idleStop [.stop runningProgram 0, .plan .resume (spindleTurns true),
      .stop runningProgram 0, .progress (spindleTurns true), .progress (spindleTurns false)] _ :=
    .of_exec rfl
  exact ⟨_, [.issued .trajStop, .stopAccepted, .planCommand .resume, .stopAccepted,
    .issued (.spindleOff 0), .stopResume], [], hrun, rfl, rfl⟩

end StopSystem

end LinuxcncCtrl
