import LinuxcncCtrl.Lib.ConsecutiveQueue
import LinuxcncCtrl.Spec.ThreadingStop

/-! The planner queue is the part of the program between the segments completed and those not yet
delivered, in order. A marked clearance in it is always an exact endpoint, so no segment behind it
leaves its start before the clearance is complete. -/

namespace LinuxcncCtrl

open Lib

variable {program : List Move} {completed : List ℕ} {queue rest : List Tc} {tc : Tc}

def Tc.Carries (program : List Move) (tc : Tc) : Prop :=
  ∃ move, program[tc.slot]? = some move ∧ tc.synchronized = move.synchronized ∧
    tc.g76PassId = move.g76PassId ∧ tc.g76PassClearance = move.g76PassClearance

structure Queued (program : List Move) (completed : List ℕ) (queue : List Tc) : Prop where
  in_order : completed = List.range completed.length
  consecutive : Consecutive Tc.slot completed.length queue
  carries : ∀ tc ∈ queue, tc.Carries program
  exact_end : ∀ tc ∈ queue, tc.g76PassClearance = 1 → tc.termCond = .stop
  /-- Only the head of the queue, or the segment it blends into, has left its start. -/
  ahead : ∀ tc ∈ queue, tc.progressed = true → tc.slot = completed.length ∨
    tc.slot = completed.length + 1 ∧
      ∀ move, program[completed.length]? = some move → move.g76PassClearance ≠ 1

namespace Queued

theorem empty : Queued program [] [] :=
  ⟨rfl, .nil, by simp, by simp, by simp⟩

theorem head_slot (h : Queued program completed (tc :: rest)) : tc.slot = completed.length :=
  (Consecutive.cons_iff.mp h.consecutive).1

theorem clearance_eq {move : Move} (h : Queued program completed queue) (htc : tc ∈ queue)
    (hmove : program[tc.slot]? = some move) : tc.g76PassClearance = move.g76PassClearance := by
  obtain ⟨move', hmove', -, -, hclearance⟩ := h.carries tc htc
  rw [hmove] at hmove'
  rw [hclearance, Option.some.inj hmove']

variable {slot : ℕ} {termCond : TcTermCond}

theorem mem_setTermCond (htc : tc ∈ Tp.setTermCond queue slot termCond) :
    ∃ old ∈ queue, tc = old ∨ (old.slot = slot ∧ tc = { old with termCond }) := by
  obtain ⟨old, hold, rfl⟩ := List.mem_map.mp htc
  refine ⟨old, hold, ?_⟩
  split_ifs with hslot
  · exact .inr ⟨hslot, rfl⟩
  · exact .inl rfl

/-- Writing a `term_cond` keeps the order; a clearance may only be written back as it was. -/
theorem setTermCond (h : Queued program completed queue)
    (hexact : ∀ tc ∈ queue, tc.slot = slot → tc.g76PassClearance = 1 → termCond = .stop) :
    Queued program completed (Tp.setTermCond queue slot termCond) := by
  refine ⟨h.in_order, h.consecutive.map fun tc => ?_, ?_, ?_, ?_⟩
  · split_ifs <;> rfl
  · intro tc htc
    obtain ⟨old, hold, heq⟩ := mem_setTermCond htc
    have hcarries := h.carries old hold
    rcases heq with rfl | ⟨-, rfl⟩ <;> exact hcarries
  · intro tc htc
    obtain ⟨old, hold, rfl | ⟨hslot, rfl⟩⟩ := mem_setTermCond htc
    · exact h.exact_end tc hold
    · exact hexact old hold hslot
  · intro tc htc
    obtain ⟨old, hold, heq⟩ := mem_setTermCond htc
    have hahead := h.ahead old hold
    rcases heq with rfl | ⟨-, rfl⟩ <;> exact hahead

theorem append (h : Queued program completed queue) (hcarries : tc.Carries program)
    (hslot : tc.slot = completed.length + queue.length)
    (hexact : tc.g76PassClearance = 1 → tc.termCond = .stop) (hfresh : tc.progressed = false) :
    Queued program completed (queue ++ [tc]) := by
  refine ⟨h.in_order, h.consecutive.append hslot, ?_, ?_, ?_⟩
  · intro other hother
    rcases List.mem_append.mp hother with hother | hother
    · exact h.carries other hother
    · obtain rfl := List.mem_singleton.mp hother
      exact hcarries
  · intro other hother
    rcases List.mem_append.mp hother with hother | hother
    · exact h.exact_end other hother
    · obtain rfl := List.mem_singleton.mp hother
      exact hexact
  · intro other hother hprogressed
    rcases List.mem_append.mp hother with hother | hother
    · exact h.ahead other hother hprogressed
    · obtain rfl := List.mem_singleton.mp hother
      rw [hfresh] at hprogressed
      cases hprogressed

theorem pop (h : Queued program completed (tc :: rest)) : Queued program (completed ++ [tc.slot]) rest := by
  have hslot := h.head_slot
  obtain ⟨-, hrest⟩ := Consecutive.cons_iff.mp h.consecutive
  refine ⟨?_, ?_, fun other hother => h.carries other (List.mem_cons_of_mem _ hother),
    fun other hother => h.exact_end other (List.mem_cons_of_mem _ hother), ?_⟩
  · rw [hslot, List.length_append, List.length_singleton, List.range_succ, ← h.in_order]
  · rwa [List.length_append]
  · intro other hother hprogressed
    have hbound := (hrest.mem_bounds hother).1
    rw [List.length_append, List.length_singleton]
    rcases h.ahead other (List.mem_cons_of_mem _ hother) hprogressed with hother | ⟨hother, -⟩
    · omega
    · exact .inl hother

theorem mem_spilled {spills : Bool} {other : Tc} (hother : other ∈ rest.modifyHead fun next =>
      { next with progressed := next.progressed || spills }) :
    ∃ old ∈ rest, other = old ∨
      (rest.head? = some old ∧ other = { old with progressed := old.progressed || spills }) := by
  cases rest with
  | nil => cases hother
  | cons next rest =>
    rcases List.mem_cons.mp hother with rfl | hother
    · exact ⟨next, List.mem_cons_self, .inr ⟨rfl, rfl⟩⟩
    · exact ⟨other, List.mem_cons_of_mem _ hother, .inl rfl⟩

theorem consecutive_spilled {n : ℕ} (spills : Bool) (h : Consecutive Tc.slot n rest) :
    Consecutive Tc.slot n (rest.modifyHead fun next =>
      { next with progressed := next.progressed || spills }) := by
  cases rest with
  | nil => exact h
  | cons next rest => exact h

/-- A cycle of the base planner: the head may be activated and move, and may run into the next
segment unless it ends at a stop. -/
theorem advance (h : Queued program completed (tc :: rest)) (activates moves spills : Bool)
    (hspills : spills = true → tc.termCond ≠ .stop) :
    Queued program completed
      ({ tc with active := tc.active || activates, progressed := tc.progressed || moves } ::
        rest.modifyHead fun next => { next with progressed := next.progressed || spills }) := by
  have hslot := h.head_slot
  obtain ⟨-, hrest⟩ := Consecutive.cons_iff.mp h.consecutive
  refine ⟨h.in_order, Consecutive.cons_iff.mpr ⟨hslot, consecutive_spilled spills hrest⟩, ?_, ?_, ?_⟩
  · intro other hother
    rcases List.mem_cons.mp hother with rfl | hother
    · exact h.carries tc List.mem_cons_self
    · obtain ⟨old, hold, heq⟩ := mem_spilled hother
      have hcarries := h.carries old (List.mem_cons_of_mem _ hold)
      rcases heq with rfl | ⟨-, rfl⟩ <;> exact hcarries
  · intro other hother
    rcases List.mem_cons.mp hother with rfl | hother
    · exact h.exact_end tc List.mem_cons_self
    · obtain ⟨old, hold, heq⟩ := mem_spilled hother
      have hexact := h.exact_end old (List.mem_cons_of_mem _ hold)
      rcases heq with rfl | ⟨-, rfl⟩ <;> exact hexact
  · intro other hother hprogressed
    rcases List.mem_cons.mp hother with rfl | hother
    · exact .inl hslot
    obtain ⟨old, hold, rfl | ⟨hhead, rfl⟩⟩ := mem_spilled hother
    · exact h.ahead other (List.mem_cons_of_mem _ hold) hprogressed
    -- the next segment had moved already, or the head has just run into it
    rcases (Bool.or_eq_true _ _).mp hprogressed with hmoved | hspill
    · exact h.ahead old (List.mem_cons_of_mem _ hold) hmoved
    · have hnext : old.slot = completed.length + 1 := by
        obtain ⟨tail, rfl⟩ := List.head?_eq_some_iff.mp hhead
        exact (Consecutive.cons_iff.mp hrest).1
      refine .inr ⟨hnext, fun move hmove hmark => hspills hspill ?_⟩
      apply h.exact_end tc List.mem_cons_self
      rw [h.clearance_eq List.mem_cons_self (hslot ▸ hmove), hmark]

end Queued

namespace Tp

variable {tp : Tp} {stepping : Bool}

/-- While the boundary of the step target is borrowed, the step is armed and its own value is
saved; for a clearance that value is an exact stop. -/
def TargetSaved (program : List Move) (tp : Tp) (stepping : Bool) : Prop :=
  tp.stepTargetOverridden = true → stepping = true ∧ tp.steppingToMotionTarget = true ∧
    tp.stepTargetPending = true ∧ ∃ slot, tp.stepTc = some slot ∧
      ∀ move, program[slot]? = some move → move.g76PassClearance = 1 → tp.stepTargetTermCond = .stop

theorem targetSaved_of_not_overridden (h : tp.stepTargetOverridden = false) :
    tp.TargetSaved program stepping := by
  intro hover
  rw [h] at hover
  cases hover

theorem tpRestoreStepTarget_eq (tp : Tp) : tp.tpRestoreStepTarget =
      { tp with queue := tp.tpRestoreStepTarget.queue, stepTargetOverridden := false } := by
  unfold tpRestoreStepTarget
  split <;> rfl

theorem restore_queued (h : Queued program completed tp.queue) (hsaved : tp.TargetSaved program stepping) :
    Queued program completed tp.tpRestoreStepTarget.queue := by
  unfold tpRestoreStepTarget
  split
  next slot hover hslot =>
    obtain ⟨-, -, -, slot', hslot', hstop⟩ := hsaved (Bool.and_eq_true_iff.mp hover).1
    obtain rfl : slot = slot' := Option.some.inj (hslot.symm.trans hslot')
    apply h.setTermCond
    intro tc htc hslot hclearance
    obtain ⟨move, hmove, -, -, hmark⟩ := h.carries tc htc
    exact hstop move (hslot ▸ hmove) (hmark ▸ hclearance)
  next => exact h

theorem tpPauseStopping_queue (tp : Tp) : tp.tpPauseStopping.queue = tp.tpRestoreStepTarget.queue := by
  unfold tpPauseStopping stopInPlace
  dsimp only
  split <;> [split_ifs <;> rfl; rfl]

theorem tpPauseStopping_overridden (tp : Tp) : tp.tpPauseStopping.stepTargetOverridden = false := by
  rw [tpPauseStopping, tpRestoreStepTarget_eq]
  split <;> [split_ifs <;> rfl; rfl]

theorem tpPauseStopping_waitingForIndex (tp : Tp) :
    tp.tpPauseStopping.waitingForIndex = tp.waitingForIndex := by
  rw [tpPauseStopping, tpRestoreStepTarget_eq]
  split <;> [split_ifs <;> rfl; rfl]

/-- A Stop that finds a cut or a clearance at the head of the queue latches its pass. -/
theorem tpPauseStopping_latched (hhead : tp.tpRestoreStepTarget.queue.head? = some tc)
    (hin : tp.inG76CutOrClearance tc = true) :
    tp.tpPauseStopping =
      { tp.tpRestoreStepTarget with
        stepTc := none
        stepTargetPending := false
        stepPassId := 0
        stepMotionId := 0
        steppingToMotionTarget := false
        stopPassId := tc.g76PassId
        stopTc := (tp.tpRestoreStepTarget.tpFindG76PassClearance tc.g76PassId).map Tc.slot
        stopTargetPending := true
        pausing := false } := by
  have hrestored : tp.tpRestoreStepTarget.waitingForIndex = tp.waitingForIndex := by
    rw [tpRestoreStepTarget_eq]
  unfold inG76CutOrClearance at hin
  rw [← hrestored] at hin
  unfold tpPauseStopping
  dsimp only
  rw [hhead]
  exact if_pos hin

theorem find_sourceBlock_mem {motionId : ℤ} {target : Tc}
    (h : tp.tpFindSourceBlockTarget motionId = some target) : target ∈ tp.queue :=
  (List.takeWhile_sublist _).subset (List.mem_of_getLast? h)

theorem tpPauseStepping_saved (h : Queued program completed tp.queue)
    (hover : tp.stepTargetOverridden = false) (harmed : tp.steppingToMotionTarget = true) :
    Queued program completed tp.tpPauseStepping.queue ∧
      tp.tpPauseStepping.TargetSaved program true ∧
      tp.tpPauseStepping.waitingForIndex = tp.waitingForIndex := by
  unfold tpPauseStepping
  dsimp only
  split_ifs with hpass
  · exact ⟨h, targetSaved_of_not_overridden hover, rfl⟩
  · split
    next target htarget =>
      have hmem := find_sourceBlock_mem htarget
      refine ⟨h.setTermCond fun _ _ _ _ => rfl, fun _ => ?_, rfl⟩
      refine ⟨rfl, harmed, rfl, target.slot, rfl, fun move hmove hmark => ?_⟩
      apply h.exact_end target hmem
      rw [h.clearance_eq hmem hmove, hmark]
    next => exact ⟨h, targetSaved_of_not_overridden hover, rfl⟩

theorem blendPrevious_eq (tp : Tp) (blend : TcTermCond) :
    tp.blendPrevious blend = { tp with queue := (tp.blendPrevious blend).queue } := by
  unfold blendPrevious
  split <;> rfl

theorem blendPrevious_length (tp : Tp) (blend : TcTermCond) :
    (tp.blendPrevious blend).queue.length = tp.queue.length := by
  unfold blendPrevious
  split
  · exact List.length_map _
  · rfl

theorem blendPrevious_queued (h : Queued program completed tp.queue) (blend : TcTermCond) :
    Queued program completed (tp.blendPrevious blend).queue := by
  unfold blendPrevious
  split
  next prev hprev =>
    apply h.setTermCond
    intro tc htc hslot hclearance
    have heq := h.consecutive.eq_of_key_eq htc (List.mem_of_getLast? hprev) hslot
    rw [if_pos (heq ▸ hclearance)]
  next => exact h

variable {tp' : Tp} {incId : Bool}

theorem tpAddSegmentToQueue_eq (h : tp.tpAddSegmentToQueue tc incId = some tp') :
    tp' = { tp with queue := tp.queue ++ [tc], stopTc := tp'.stopTc, stepTc := tp'.stepTc } ∧
      (tp.stopTc ≠ none → tp'.stopTc = tp.stopTc) ∧ (tp.stepTc ≠ none → tp'.stepTc = tp.stepTc) := by
  obtain ⟨-, h⟩ := Option.ite_none_left_eq_some.mp h
  obtain ⟨-, ⟨⟩⟩ := Option.ite_none_left_eq_some.mp h
  refine ⟨rfl, fun hbound => ?_, fun hbound => ?_⟩
  · exact if_neg fun ⟨_, _, _, hmissing, _⟩ => hbound hmissing
  · exact if_neg fun ⟨_, _, _, hmissing, _⟩ => hbound hmissing

theorem tpAddSegmentToQueue_saved (h : tp.TargetSaved program stepping)
    (hadd : tp.tpAddSegmentToQueue tc incId = some tp') : tp'.TargetSaved program stepping := by
  obtain ⟨heq, -, hstep⟩ := tpAddSegmentToQueue_eq hadd
  rw [heq]
  intro hover
  obtain ⟨hstepping, harmed, hpending, slot, hslot, hstop⟩ := h hover
  refine ⟨hstepping, harmed, hpending, slot, ?_, hstop⟩
  exact (hstep (by simp [hslot])).trans hslot

theorem tpCompleteSegment_queue (tp : Tp) (tc : Tc) : (tp.tpCompleteSegment tc).queue = tp.queue.tail := by
  unfold tpCompleteSegment
  dsimp only
  split_ifs <;> rfl

theorem tpCompleteSegment_waitingForIndex (tp : Tp) (tc : Tc) :
    (tp.tpCompleteSegment tc).waitingForIndex = tp.waitingForIndex := by
  unfold tpCompleteSegment
  dsimp only
  split_ifs <;> rfl

theorem tpCompleteSegment_other (hstop : tp.stopTc ≠ some tc.slot) (hstep : tp.stepTargetPending = false) :
    tp.tpCompleteSegment tc = { tp with queue := tp.queue.tail } := by
  have hstop : ¬ (tp.stopping = true ∧ tp.stopTargetPending = true ∧ tp.stopTc = some tc.slot) :=
    fun hdone => hstop hdone.2.2
  unfold tpCompleteSegment
  dsimp only
  rw [if_neg hstop, if_neg (by simp [hstep])]

theorem tpCompleteSegment_target (hstopping : tp.stopping = true)
    (hpending : tp.stopTargetPending = true) (hstop : tp.stopTc = some tc.slot)
    (hstep : tp.stepTargetPending = false) :
    tp.tpCompleteSegment tc =
      { tp with
        stopTargetPending := false, stopTc := none, stopPassId := 0, queue := tp.queue.tail } := by
  have hstop : tp.stopping = true ∧ tp.stopTargetPending = true ∧ tp.stopTc = some tc.slot :=
    ⟨hstopping, hpending, hstop⟩
  unfold tpCompleteSegment
  dsimp only
  rw [if_pos hstop, if_neg (by simp [hstep])]

theorem tpCompleteSegment_saved (h : tp.TargetSaved program stepping) :
    (tp.tpCompleteSegment tc).TargetSaved program stepping := by
  unfold tpCompleteSegment
  dsimp only
  split_ifs <;> first | exact h | exact targetSaved_of_not_overridden rfl

end Tp

namespace CoordMotion

variable {m : CoordMotion}

structure Inv (program : List Move) (m : CoordMotion) : Prop where
  queued : Queued program m.completed m.tp.queue
  saved : m.tp.TargetSaved program m.stepping
  index : m.tp.waitingForIndex ≠ none → ¬ m.spindleSync program

theorem inv_initial : Inv program {} :=
  ⟨.empty, Tp.targetSaved_of_not_overridden rfl, fun h => absurd rfl h⟩

theorem Inv.tpResume (h : m.Inv program) : m.tpResume.Inv program := by
  refine ⟨Tp.restore_queued h.queued h.saved, Tp.targetSaved_of_not_overridden ?_, ?_⟩
  · unfold CoordMotion.tpResume Tp.resumed
    rw [Tp.tpRestoreStepTarget_eq]
  · unfold CoordMotion.tpResume Tp.resumed
    rw [Tp.tpRestoreStepTarget_eq]
    exact h.index

theorem Inv.emcmotResume (h : m.Inv program) : m.emcmotResume.Inv program := by
  refine { h.tpResume with saved := Tp.targetSaved_of_not_overridden ?_ }
  unfold CoordMotion.emcmotResume CoordMotion.tpResume Tp.resumed
  rw [Tp.tpRestoreStepTarget_eq]

theorem inv_tpPauseStopping {tp : Tp} {stepping : Bool} (htp : m.tp = tp.tpPauseStopping)
    (hqueued : Queued program m.completed tp.queue) (hsaved : tp.TargetSaved program stepping)
    (hindex : tp.waitingForIndex ≠ none → ¬ m.spindleSync program) : m.Inv program := by
  refine ⟨?_, Tp.targetSaved_of_not_overridden ?_, ?_⟩
  · rw [htp, Tp.tpPauseStopping_queue]
    exact Tp.restore_queued hqueued hsaved
  · rw [htp, Tp.tpPauseStopping_overridden]
  · rw [htp, Tp.tpPauseStopping_waitingForIndex]
    exact hindex

theorem Inv.emcmotStop (h : m.Inv program) : m.emcmotStop.Inv program :=
  have hsaved : Tp.TargetSaved program
      { m.tp with stopping := true, stopTc := none, stopTargetPending := false, stopPassId := 0 }
      m.stepping := h.saved
  inv_tpPauseStopping rfl h.queued hsaved h.index

theorem Inv.updateStatus (h : m.Inv program) (execId : ℤ) : (m.updateStatus execId).Inv program := by
  unfold CoordMotion.updateStatus
  dsimp only
  split_ifs with hdone
  · -- a finished step has already given the boundary back
    have hover : m.tp.stepTargetOverridden = false := by
      cases hover : m.tp.stepTargetOverridden with
      | false => rfl
      | true =>
        obtain ⟨-, harmed, hpending, -⟩ := h.saved hover
        simp [harmed, hpending] at hdone
    have hsaved : Tp.TargetSaved program
        { m.tp with
          stepTc := none, stepPassId := 0, stepMotionId := 0, steppingToMotionTarget := false }
        m.stepping := Tp.targetSaved_of_not_overridden hover
    unfold Tp.tpPause
    rw [Bool.and_false, if_neg Bool.false_ne_true]
    split_ifs
    · exact inv_tpPauseStopping rfl h.queued hsaved h.index
    · exact ⟨h.queued, Tp.targetSaved_of_not_overridden hover, h.index⟩
  · exact h

theorem Inv.tpHandleEmptyQueue (h : m.Inv program) : m.tpHandleEmptyQueue.Inv program := by
  unfold CoordMotion.tpHandleEmptyQueue
  split_ifs
  · exact h.tpResume
  · exact h

/-- `tpPause` as a step calls it; with a Stop in force it is that Stop again. -/
theorem inv_tpPause_armed (tp : Tp) (hqueued : Queued program m.completed tp.queue)
    (hover : tp.stepTargetOverridden = false) (harmed : tp.steppingToMotionTarget = true)
    (hindex : tp.waitingForIndex ≠ none → ¬ m.spindleSync program) :
    Inv program { m with tp := tp.tpPause true, stepping := true } := by
  have hsaved : tp.TargetSaved program true := Tp.targetSaved_of_not_overridden hover
  unfold Tp.tpPause
  rw [harmed]
  split_ifs with hstopping
  · exact inv_tpPauseStopping rfl hqueued hsaved hindex
  · obtain ⟨hqueued, hsaved, hwaiting⟩ := Tp.tpPauseStepping_saved hqueued hover harmed
    refine ⟨hqueued, hsaved, ?_⟩
    rw [hwaiting]
    exact hindex
  · exact absurd rfl ‹_›

theorem Inv.not_overridden (h : m.Inv program) (hstepping : m.stepping = false) :
    m.tp.stepTargetOverridden = false := by
  cases hover : m.tp.stepTargetOverridden with
  | false => rfl
  | true => exact absurd ((h.saved hover).1.symm.trans hstepping) Bool.noConfusion

theorem Inv.emcmotStep (h : m.Inv program) (execId : ℤ) : (m.emcmotStep execId).Inv program := by
  unfold CoordMotion.emcmotStep
  dsimp only
  by_cases hready : m.stepping = false ∧ m.tp.queue ≠ []
  · rw [if_pos hready]
    have hresumed : Inv program (if m.paused then m.tpResume else m) := by
      split_ifs
      · exact h.tpResume
      · exact h
    have hover : (if m.paused then m.tpResume else m).tp.stepTargetOverridden = false := by
      apply hresumed.not_overridden
      split_ifs <;> exact hready.1
    have harmed := inv_tpPause_armed { (if m.paused then m.tpResume else m).tp with
      steppingToMotionTarget := true, stepTargetPending := false } hresumed.queued hover rfl
      hresumed.index
    generalize (if m.paused then m.tpResume else m) = m₁ at hresumed harmed ⊢
    split_ifs with hpending
    · exact harmed
    · apply Inv.tpResume
      refine ⟨harmed.queued, Tp.targetSaved_of_not_overridden ?_, harmed.index⟩
      cases hover : Tp.stepTargetOverridden _ with
      | false => rfl
      | true => exact absurd (harmed.saved hover).2.2.1 hpending
  · rw [if_neg hready]
    exact h

variable {move : Move} {cycle : PlannerCycle}

theorem Inv.tpAddLine (h : m.Inv program) (hmove : program[m.delivered]? = some move)
    (nextId : ℤ) (blend : TcTermCond) : (m.tpAddLine move nextId blend).Inv program := by
  have hblend := Tp.blendPrevious_queued h.queued blend
  have hsaved : (m.tp.blendPrevious blend).TargetSaved program m.stepping := by
    rw [Tp.blendPrevious_eq]
    exact h.saved
  have hindex : (m.tp.blendPrevious blend).waitingForIndex ≠ none → ¬ m.spindleSync program := by
    rw [Tp.blendPrevious_eq]
    exact h.index
  unfold CoordMotion.tpAddLine
  split
  next tp hadd =>
    obtain ⟨heq, -, -⟩ := Tp.tpAddSegmentToQueue_eq hadd
    refine ⟨?_, Tp.tpAddSegmentToQueue_saved hsaved hadd, ?_⟩
    · rw [heq]
      apply hblend.append
      · exact ⟨move, hmove, rfl, rfl, rfl⟩
      · rw [Tp.blendPrevious_length]
        rfl
      · exact fun hclearance => if_pos hclearance
      · rfl
    · rw [heq]
      exact hindex
  next => exact ⟨hblend, hsaved, hindex⟩

/-- A move is accepted unless the Stop still waits for a clearance of another pass. -/
theorem tpAddLine_accepted (nextId : ℤ) (blend : TcTermCond)
    (hstop : m.tp.stopTargetPending = true → m.tp.stopTc = none →
      move.g76PassId = m.tp.stopPassId) (hstep : m.tp.stepTargetPending = false) :
    m.tpAddLine move nextId blend =
      { m with
        tp :=
          { m.tp with
            queue := (m.tp.blendPrevious blend).queue ++ [m.newSegment move nextId]
            stopTc :=
              if move.g76PassClearance = 1 ∧ m.tp.stopping = true ∧
                  m.tp.stopTargetPending = true ∧ m.tp.stopTc = none ∧
                  move.g76PassId = m.tp.stopPassId then some m.delivered
              else m.tp.stopTc } } := by
  unfold CoordMotion.tpAddLine
  rw [Tp.blendPrevious_eq, Tp.tpAddSegmentToQueue, if_neg, if_neg]
  · simp only [hstep, Bool.false_eq_true, false_and, and_false, if_false]
    rfl
  · rintro ⟨_, _, hpending, _⟩
    exact Bool.noConfusion (hstep.symm.trans hpending)
  · rintro ⟨_, _, hpending, _, hnone, hne⟩
    exact hne (hstop hpending hnone)

theorem Inv.advance (h : m.Inv program)
    (hqueue : m.tp.queue = tc :: rest) (hsound : cycle.Sound program m tc) :
    ((m.checkStop tc cycle.atRest).advance tc rest cycle).Inv program := by
  obtain ⟨-, hspills, -, hwaiting⟩ := hsound
  have hqueued : Queued program m.completed (tc :: rest) := hqueue ▸ h.queued
  have hadvanced := hqueued.advance cycle.activates cycle.moves cycle.spills
    fun hspill => (hspills hspill).2.1
  unfold CoordMotion.advance
  cases hcompletes : cycle.completes with
  | false => exact ⟨hadvanced, h.saved, fun hwait => (hwaiting hwait).2⟩
  | true =>
    refine ⟨?_, Tp.tpCompleteSegment_saved h.saved, fun hwait => ?_⟩
    · rw [if_pos rfl, Tp.tpCompleteSegment_queue]
      exact hadvanced.pop
    · rw [if_pos rfl, Tp.tpCompleteSegment_waitingForIndex] at hwait
      exact absurd ((hwaiting hwait).1.symm.trans hcompletes) Bool.noConfusion

theorem tpRunCycle_cons (cycle : PlannerCycle) (hqueue : m.tp.queue = tc :: rest) :
    m.tpRunCycle cycle = (m.checkStop tc cycle.atRest).advance tc rest cycle := by
  unfold CoordMotion.tpRunCycle
  rw [hqueue]

/-- With the queue empty, a Stop waits for a clearance that has not been delivered. -/
theorem tpRunCycle_empty_waiting (cycle : PlannerCycle) (hqueue : m.tp.queue = [])
    (hstopping : m.tp.stopping = true) (hpending : m.tp.stopTargetPending = true)
    (hpass : m.tp.stopPassId ≠ 0) (hnone : m.tp.stopTc = none) : m.tpRunCycle cycle = m := by
  have hidle : m.tpHandleEmptyQueue = m := by
    unfold CoordMotion.tpHandleEmptyQueue
    rw [hstopping]
    rfl
  unfold CoordMotion.tpRunCycle
  simp [hqueue, hstopping, hidle, hpending, hpass, hnone]

theorem tpRunCycle_empty_stopped (cycle : PlannerCycle) (hqueue : m.tp.queue = [])
    (hstopping : m.tp.stopping = true) (hpending : m.tp.stopTargetPending = false) :
    m.tpRunCycle cycle = { m with tp := { m.tp with pausing := true }, stopped := true } := by
  have hidle : m.tpHandleEmptyQueue = m := by
    unfold CoordMotion.tpHandleEmptyQueue
    rw [hstopping]
    rfl
  unfold CoordMotion.tpRunCycle
  simp [hqueue, hstopping, hidle, hpending]

theorem Inv.tpRunCycle (h : m.Inv program) (hok : ∀ tc ∈ m.tp.queue.head?, cycle.Sound program m tc) :
    (m.tpRunCycle cycle).Inv program := by
  unfold CoordMotion.tpRunCycle
  split
  next hempty =>
    have hhandled := h.tpHandleEmptyQueue
    dsimp only
    split_ifs
    · exact hhandled
    · exact { hhandled with }
    · exact hhandled
    · exact hhandled
  next tc rest hqueue => exact h.advance hqueue (hok tc (by rw [hqueue]; rfl))

theorem inv_step {a : MotionAction} {m' : CoordMotion} (hok : m.Planned program a)
    (hstep : m.step program a = some m') (h : m.Inv program) : m'.Inv program := by
  cases a with
  | deliver nextId blend =>
    obtain ⟨-, hstep⟩ := Option.ite_none_left_eq_some.mp hstep
    obtain ⟨move, hmove, rfl⟩ := Option.map_eq_some_iff.mp hstep
    exact h.tpAddLine hmove nextId blend
  | runCycle cycle =>
    cases hstep
    exact h.tpRunCycle hok
  | outputToHal atRest =>
    cases hstep
    exact { h with }
  | updateStatus execId =>
    cases hstep
    exact h.updateStatus execId
  | stop =>
    cases hstep
    exact h.emcmotStop
  | resume =>
    cases hstep
    exact h.emcmotResume
  | step execId =>
    cases hstep
    exact h.emcmotStep execId

theorem inv_run {actions : List MotionAction} {m₀ : CoordMotion} (h₀ : m₀.Inv program)
    (hrun : RunWhere (step program) (Planned program) m₀ actions m) : m.Inv program := by
  induction hrun with
  | nil => exact h₀
  | snoc _ hok hstep ih => exact inv_step hok hstep ih

end CoordMotion

end LinuxcncCtrl
