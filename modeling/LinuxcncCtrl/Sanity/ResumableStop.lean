import LinuxcncCtrl.Spec.ResumableStop

/-! What the functions of the stop machine can put into the event list. -/

namespace LinuxcncCtrl

variable {D : Type}

namespace TaskEvent

def restarts : TaskEvent D → Bool
  | .stopResume | .issued .trajResume | .issued .trajStep | .issued .mistOn | .issued .floodOn
  | .issued (.spindleOn _ _ _ _) | .issued (.spindleOrient _ _ _) => true
  | _ => false

def force (inForce : Bool) : TaskEvent D → Bool
  | .stopAccepted => true
  | .planCommand _ => false
  | _ => inForce

/-- Neither an accepted Stop nor a command that continues the program. -/
def neutral : TaskEvent D → Bool
  | .stopAccepted | .planCommand _ => false
  | _ => true

@[simp]
theorem neutral_issued (o : TaskOutput D) : (issued o).neutral = true := rfl

theorem force_of_neutral {e : TaskEvent D} (h : e.neutral = true) (b : Bool) : force b e = b := by
  cases e <;> first | rfl | simp [neutral] at h

end TaskEvent

/-- A Stop was accepted after the last Run, Resume or Step. -/
def stopInForce (events : List (TaskEvent D)) : Bool :=
  events.foldl TaskEvent.force false

@[simp]
theorem stopInForce_concat (events : List (TaskEvent D)) (e : TaskEvent D) :
    stopInForce (events ++ [e]) = TaskEvent.force (stopInForce events) e := by
  simp [stopInForce]

variable {new : List (TaskEvent D)}

theorem stopInForce_append_neutral (events : List (TaskEvent D))
    (h : ∀ e ∈ new, e.neutral = true) : stopInForce (events ++ new) = stopInForce events := by
  induction new generalizing events with
  | nil => simp
  | cons e rest ih =>
    have he := h e (by simp)
    rw [List.append_cons, ih _ fun e' he' => h e' (List.mem_cons_of_mem _ he'), stopInForce_concat,
      TaskEvent.force_of_neutral he]

def Fenced (events : List (TaskEvent D)) : Prop :=
  ∀ before e after, events = before ++ e :: after → e.restarts = true → stopInForce before = false

theorem fenced_nil : Fenced ([] : List (TaskEvent D)) := by
  intro before e after h
  simp at h

variable {events : List (TaskEvent D)}

theorem Fenced.append (h : Fenced events)
    (hnew : ∀ before e after, new = before ++ e :: after → e.restarts = true →
      stopInForce (events ++ before) = false) : Fenced (events ++ new) := by
  intro before e after heq hrestarts
  rcases List.append_eq_append_iff.mp heq with ⟨tail, rfl, hsplit⟩ | ⟨tail, rfl, hsplit⟩
  · exact hnew tail e after hsplit hrestarts
  · cases tail with
    | nil => exact hnew [] e after (by simpa using hsplit.symm) hrestarts ▸ by simp
    | cons e' tail =>
      cases hsplit
      exact h before e tail rfl hrestarts

theorem Fenced.append_quiet (h : Fenced events)
    (hquiet : ∀ e ∈ new, e.restarts = false) : Fenced (events ++ new) := by
  refine h.append fun before e after heq hrestarts => ?_
  have := hquiet e (by simp [heq])
  simp [this] at hrestarts

theorem Fenced.append_neutral (h : Fenced events)
    (hforce : stopInForce events = false) (hneutral : ∀ e ∈ new, e.neutral = true) :
    Fenced (events ++ new) := by
  refine h.append fun before e after heq _ => ?_
  rw [stopInForce_append_neutral events fun e' he' => hneutral e' (by simp [heq, he'])]
  exact hforce

theorem mem_issueIf {b : Bool} {o : TaskOutput D} {e : TaskEvent D} (h : e ∈ issueIf b o) :
    e = .issued o := by
  cases b <;> simp_all [issueIf]

namespace TaskStop

variable {spindles : ℕ} {m : TaskStop D} {motion : MotionInputs D} {e : TaskEvent D}

theorem disableSavedOutputs_quiet (h : e ∈ m.emcTaskStopDisableSavedOutputs spindles) :
    e.neutral = true ∧ e.restarts = false := by
  simp only [emcTaskStopDisableSavedOutputs, List.mem_append, List.mem_flatMap] at h
  rcases h with (⟨s, -, h⟩ | h) | h
  · obtain rfl := mem_issueIf h
    exact ⟨rfl, rfl⟩
  · obtain rfl := mem_issueIf h
    exact ⟨rfl, rfl⟩
  · obtain rfl := mem_issueIf h
    exact ⟨rfl, rfl⟩

def stoppingOutputs (spindles : ℕ) (m : TaskStop D) (motion : MotionInputs D) :
    List (TaskEvent D) :=
  (List.range spindles).flatMap (fun s => issueIf (spindleOutputActive motion s) (.spindleOff s)) ++
    (if m.stopOutputsSaved then []
     else issueIf (m.saveOutputs spindles motion).stopMist .mistOff ++
      issueIf (m.saveOutputs spindles motion).stopFlood .floodOff)

theorem stoppingOutputs_quiet (h : e ∈ m.stoppingOutputs spindles motion) :
    e.neutral = true ∧ e.restarts = false := by
  simp only [stoppingOutputs, List.mem_append, List.mem_flatMap] at h
  rcases h with ⟨s, -, h⟩ | h
  · obtain rfl := mem_issueIf h
    exact ⟨rfl, rfl⟩
  · by_cases hsaved : m.stopOutputsSaved
    · simp [hsaved] at h
    · simp only [hsaved, Bool.false_eq_true, if_false, List.mem_append] at h
      rcases h with h | h
      all_goals
        obtain rfl := mem_issueIf h
        exact ⟨rfl, rfl⟩

@[simp]
theorem saveOutputs_stopState : (m.saveOutputs spindles motion).stopState = m.stopState := by
  simp only [saveOutputs]
  split_ifs <;> rfl

@[simp]
theorem saveOutputs_stopResumeLatched :
    (m.saveOutputs spindles motion).stopResumeLatched = m.stopResumeLatched := by
  simp only [saveOutputs]
  split_ifs <;> rfl

def Holding (m : TaskStop D) : Prop :=
  m.stopState ≠ .starting ∧ (m.stopState = .stopping → m.stopResumeLatched = false)

variable {inputs : PlanInputs}

theorem planStop_refused (h : m.stopAllowed inputs = false) (trajStop : ℤ) :
    m.emcTaskPlanStop spindles inputs trajStop =
      (m, [.issued (.operatorError "Can't stop program when no AUTO program is active")], -1) := by
  simp [emcTaskPlanStop, h]

theorem planStop_quiet {trajStop : ℤ}
    (h : e ∈ (m.emcTaskPlanStop spindles inputs trajStop).2.1) :
    e.neutral = true ∧ e.restarts = false := by
  cases hallowed : m.stopAllowed inputs with
  | false =>
    rw [planStop_refused hallowed, List.mem_singleton] at h
    exact h ▸ ⟨rfl, rfl⟩
  | true =>
    cases hstate : m.stopState <;>
      simp only [emcTaskPlanStop, hallowed, hstate, Bool.not_true, Bool.false_eq_true, if_false] at h
    case idle =>
      rw [List.mem_singleton] at h
      exact h ▸ ⟨rfl, rfl⟩
    case starting => exact disableSavedOutputs_quiet h
    all_goals simp at h

/-- An allowed Stop is in force afterwards, unless a latched resume is left standing. -/
theorem planStop_holding (hallowed : m.stopAllowed inputs = true)
    (hlatch : m.stopState = .stopping → m.stopResumeLatched = false) (trajStop : ℤ) :
    (m.emcTaskPlanStop spindles inputs trajStop).1.Holding := by
  cases hstate : m.stopState <;>
    simp only [emcTaskPlanStop, hallowed, hstate, Bool.not_true, Bool.false_eq_true, if_false]
  case idle => exact ⟨by simp, fun _ => rfl⟩
  case starting => exact ⟨by simp, fun _ => rfl⟩
  case stopping => exact ⟨by simp [hstate], fun _ => hlatch hstate⟩
  case stopped => exact ⟨by simp [hstate], by simp [hstate]⟩

variable [Zero D] [Add D] [LT D] [DecidableLT D]

theorem stopResume_neutral {etime : D} (h : e ∈ (m.emcTaskStopResume spindles etime).2) :
    e.neutral = true := by
  by_cases hsaved : m.stopOutputsSaved
  · simp only [emcTaskStopResume, hsaved, Bool.not_true, Bool.false_eq_true, if_false,
      List.mem_cons, List.mem_append, List.mem_flatMap] at h
    rcases h with rfl | (h | h) | ⟨s, -, h | h⟩
    · rfl
    all_goals
      obtain rfl := mem_issueIf h
      rfl
  · simp only [emcTaskStopResume, hsaved, Bool.not_false, if_true, List.mem_singleton] at h
    exact h ▸ rfl

/-- The STOPPING case waits for motion, waits for the spindles, stops, or resumes at once. -/
theorem progressStopping_cases (spindles : ℕ) (m : TaskStop D) (motion : MotionInputs D) :
    m.progressStopping spindles motion = (m, []) ∨
    m.progressStopping spindles motion =
      (m.saveOutputs spindles motion, m.stoppingOutputs spindles motion) ∨
    (m.stopResumeLatched = false ∧ m.progressStopping spindles motion =
      ({ m.saveOutputs spindles motion with stopState := .stopped },
        m.stoppingOutputs spindles motion)) ∨
    (m.stopResumeLatched = true ∧
      ∃ resumed, resumed = ({ m.saveOutputs spindles motion with stopState := .stopped } :
          TaskStop D).emcTaskStopResume spindles motion.etime ∧
        m.progressStopping spindles motion =
          (resumed.1, m.stoppingOutputs spindles motion ++ resumed.2)) := by
  by_cases hstopped : motion.stopped
  swap
  · left
    simp [progressStopping, hstopped]
  right
  by_cases hactive : (List.range spindles).any (spindleOutputActive motion)
  · left
    simp only [progressStopping, hstopped, Bool.not_true, Bool.false_eq_true, if_false, hactive,
      if_true, stoppingOutputs]
  right
  cases hlatched : m.stopResumeLatched with
  | false =>
    left
    simp only [progressStopping, hstopped, Bool.not_true, Bool.false_eq_true, if_false, hactive,
      saveOutputs_stopResumeLatched, hlatched, stoppingOutputs, true_and]
  | true =>
    right
    simp only [progressStopping, hstopped, Bool.not_true, Bool.false_eq_true, if_false, hactive,
      saveOutputs_stopResumeLatched, hlatched, if_true, stoppingOutputs, true_and, exists_eq_left]

theorem progressStopping_neutral (h : e ∈ (m.progressStopping spindles motion).2) :
    e.neutral = true := by
  rcases progressStopping_cases spindles m motion with
    heq | heq | ⟨-, heq⟩ | ⟨-, resumed, rfl, heq⟩
  · simp [heq] at h
  · exact (stoppingOutputs_quiet (by simpa [heq] using h)).1
  · exact (stoppingOutputs_quiet (by simpa [heq] using h)).1
  · rw [heq, List.mem_append] at h
    rcases h with h | h
    · exact (stoppingOutputs_quiet h).1
    · exact stopResume_neutral h

/-- While the Stop holds, the STOPPING case only switches off and keeps holding. -/
theorem progressStopping_holding (hlatch : m.stopResumeLatched = false)
    (hstate : m.stopState = .stopping) :
    (m.progressStopping spindles motion).1.Holding ∧
      ∀ e ∈ (m.progressStopping spindles motion).2, e.restarts = false := by
  rcases progressStopping_cases spindles m motion with heq | heq | ⟨-, heq⟩ | ⟨hlatched, -⟩
  · rw [heq]
    exact ⟨⟨by simp [hstate], fun _ => hlatch⟩, by simp⟩
  · rw [heq]
    exact ⟨⟨by simp [hstate], fun _ => by simpa using hlatch⟩, fun e he =>
      (stoppingOutputs_quiet he).2⟩
  · rw [heq]
    exact ⟨⟨by simp, by simp⟩, fun e he => (stoppingOutputs_quiet he).2⟩
  · simp [hlatch] at hlatched

variable [LE D] [DecidableLE D]

omit [Add D] in
theorem progressStarting_neutral (h : e ∈ (m.progressStarting spindles motion).2) :
    e.neutral = true := by
  simp only [progressStarting] at h
  split at h
  · rcases List.mem_append.mp h with h | h
    · exact (disableSavedOutputs_quiet h).1
    · simp_all
  · simp at h
  · simp_all

theorem progress_neutral (h : e ∈ (m.emcTaskStopProgress spindles motion).2) :
    e.neutral = true := by
  cases hs : m.stopState with
  | idle | stopped => simp [emcTaskStopProgress, hs] at h
  | stopping => exact progressStopping_neutral (by simpa [emcTaskStopProgress, hs] using h)
  | starting => exact progressStarting_neutral (by simpa [emcTaskStopProgress, hs] using h)

theorem progress_holding (h : m.Holding) (spindles : ℕ) (motion : MotionInputs D) :
    (m.emcTaskStopProgress spindles motion).1.Holding ∧
      ∀ e ∈ (m.emcTaskStopProgress spindles motion).2, e.restarts = false := by
  cases hstate : m.stopState with
  | idle | stopped => exact ⟨by simpa [emcTaskStopProgress, hstate] using h,
      by simp [emcTaskStopProgress, hstate]⟩
  | starting => exact absurd hstate h.1
  | stopping =>
    simp only [emcTaskStopProgress, hstate]
    exact progressStopping_holding (h.2 hstate) hstate

omit [LE D] [DecidableLE D] in
theorem plan_events (spindles : ℕ) (m : TaskStop D) (command : PlanCommand)
    (motion : MotionInputs D) : ∃ rest,
      (m.emcTaskPlan spindles command motion).2 = .planCommand command :: rest ∧
        ∀ e ∈ rest, e.neutral = true := by
  cases hstate : m.stopState with
  | stopped =>
    simp only [emcTaskPlan, hstate, reduceCtorEq, if_false]
    exact ⟨_, rfl, fun e he => stopResume_neutral he⟩
  | idle | stopping | starting => exact ⟨[], by simp [emcTaskPlan, hstate], by simp⟩

end TaskStop

end LinuxcncCtrl
