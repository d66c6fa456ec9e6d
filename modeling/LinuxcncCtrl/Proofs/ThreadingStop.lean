import LinuxcncCtrl.Sanity.ThreadingStop

/-! A Stop taken while the head of the queue is an active cut or the clearance ends exactly at that
clearance. Where it is taken between two cuts, before the second is activated, or while the queue is
empty in the middle of the pass, `tpPause` finds no cut and stops in the groove. -/

namespace LinuxcncCtrl

open Lib

namespace G76Pass

variable {program : List Move} (pass : G76Pass program) {completed : List ℕ} {m : CoordMotion}

/-- The Stop finds an active segment or a marked clearance at the head of the queue. -/
def HeadEngaged (m : CoordMotion) : Prop :=
  ∃ tc ∈ m.tp.queue.head?, tc.active = true ∨ tc.g76PassClearance = 1

/-- The pass is being finished: the Stop waits for the clearance, found or still to come. -/
structure Running (m : CoordMotion) : Prop where
  started : pass.first ≤ m.completed.length
  ahead : m.completed.length ≤ pass.last
  pending : m.tp.stopTargetPending = true
  stopPassId : m.tp.stopPassId = pass.passId
  pausing : m.tp.pausing = false
  not_stopped : m.stopped = false
  target : m.tp.stopTc = if pass.last < m.delivered then some pass.last else none

/-- The clearance is complete and what follows it stays at its start. -/
structure Finished (m : CoordMotion) : Prop where
  complete : m.completed.length = pass.last + 1
  pending : m.tp.stopTargetPending = false
  still : ∀ tc ∈ m.tp.queue, tc.progressed = false

structure Ending (s m : CoordMotion) : Prop where
  inv : m.Inv program
  stopping : m.tp.stopping = true
  stepping : m.stepping = false
  unarmed : m.tp.stepTargetPending = false
  failed : m.failed = s.failed
  reached : s.completed.length ≤ m.completed.length
  phase : pass.Running m ∨ pass.Finished m

theorem clearance_at : program[pass.last]? = some pass.clearance := by
  refine (congrArg (·[pass.last]?) pass.program_eq).trans ?_
  unfold last
  rw [← List.length_append, List.getElem?_append_right le_rfl, Nat.sub_self]
  rfl

variable {k : ℕ}

theorem cut_at (hfirst : pass.first ≤ k) (hlast : k < pass.last) :
    ∃ move ∈ pass.cuts, program[k]? = some move := by
  have hindex : k - pass.before.length < pass.cuts.length := by
    unfold first at hfirst
    unfold last at hlast
    omega
  refine ⟨pass.cuts[k - pass.before.length], List.getElem_mem hindex, ?_⟩
  refine (congrArg (·[k]?) pass.program_eq).trans ?_
  rw [List.append_assoc, List.getElem?_append_right hfirst, List.getElem?_append_left hindex,
    List.getElem?_eq_getElem hindex]

/-- The segments of the pass: cuts with its id before the last slot, the clearance at it. -/
theorem segment {tc : Tc} (htc : tc.Carries program) (hfirst : pass.first ≤ tc.slot)
    (hlast : tc.slot ≤ pass.last) :
    tc.g76PassId = pass.passId ∧ (tc.g76PassClearance = 1 ↔ tc.slot = pass.last) ∧
      (tc.slot < pass.last → tc.synchronized = .position) := by
  obtain ⟨move, hmove, hsync, hid, hclearance⟩ := htc
  rw [hsync, hid, hclearance]
  rcases hlast.lt_or_eq with hlt | heq
  · obtain ⟨cut, hcut, hat⟩ := pass.cut_at hfirst hlt
    obtain rfl : cut = move := Option.some.inj (hat.symm.trans hmove)
    obtain ⟨hposition, hpass, hmark⟩ := pass.cut cut hcut
    exact ⟨hpass, ⟨fun h => absurd h hmark, fun h => absurd h hlt.ne⟩, fun _ => hposition⟩
  · rw [heq, pass.clearance_at] at hmove
    cases hmove
    exact ⟨pass.clearance_id, ⟨fun _ => heq, fun _ => pass.clearance_mark⟩, fun h => absurd heq h.ne⟩

variable {tp : Tp}

/-- The search for the clearance finds this pass's own, if it is queued. -/
theorem find_clearance (h : Queued program completed tp.queue)
    (hfirst : pass.first ≤ completed.length) (hlast : completed.length ≤ pass.last) :
    (tp.tpFindG76PassClearance pass.passId).map Tc.slot =
      if pass.last < completed.length + tp.queue.length then some pass.last else none := by
  unfold Tp.tpFindG76PassClearance
  rw [if_neg pass.passId_ne]
  split_ifs with hqueued
  · obtain ⟨tc, htc, hslot⟩ := h.consecutive.exists_mem hlast hqueued
    have htarget := pass.segment (h.carries tc htc) (hslot ▸ hfirst.trans hlast) hslot.le
    rw [h.consecutive.find?_eq_some htc, Option.map_some, hslot]
    · simp [htarget.1, htarget.2.1.mpr hslot]
    · intro other hother hmark
      have hbounds := h.consecutive.mem_bounds hother
      by_contra hlt
      have hsegment := pass.segment (h.carries other hother) (by omega) (by omega)
      have hmark := of_decide_eq_true (Bool.and_eq_true_iff.mp hmark).2
      have := hsegment.2.1.mp hmark
      omega
  · rw [Option.map_eq_none_iff, List.find?_eq_none]
    intro other hother hmark
    have hbounds := h.consecutive.mem_bounds hother
    have hsegment := pass.segment (h.carries other hother) (by omega) (by omega)
    have hmark := of_decide_eq_true (Bool.and_eq_true_iff.mp hmark).2
    have := hsegment.2.1.mp hmark
    omega

theorem restored_head (tp : Tp) : tp.tpRestoreStepTarget.queue.head? = tp.queue.head? ∨
      ∃ tc termCond, tp.queue.head? = some tc ∧
        tp.tpRestoreStepTarget.queue.head? = some { tc with termCond } := by
  unfold Tp.tpRestoreStepTarget
  split
  next slot _ _ =>
    unfold Tp.setTermCond
    rw [List.head?_map]
    cases tp.queue.head? with
    | none => exact .inl rfl
    | some tc =>
      rw [Option.map_some]
      split_ifs
      · exact .inr ⟨tc, tp.stepTargetTermCond, rfl, rfl⟩
      · exact .inl rfl
  next => exact .inl rfl

/-- With the first cut past the index, no segment of the pass waits for it. -/
theorem not_waiting (h : m.Inv program) (hcut : pass.Cutting m) {tc : Tc}
    (htc : tc ∈ m.tp.queue.head?) : m.tp.waitingForIndex ≠ some tc.id := by
  rcases hcut.2 with hpast | ⟨-, other, hother, -, hwaiting⟩
  · obtain ⟨cut, hcut', hat⟩ := pass.cut_at (Nat.le_sub_one_of_lt hpast)
      (Nat.sub_one_lt_of_le (Nat.zero_lt_of_lt hpast) hcut.1)
    have hsync : m.spindleSync program := by
      unfold CoordMotion.spindleSync
      have hlast : m.completed.getLast? = some (m.completed.length - 1) := by
        rw [h.queued.in_order, List.getLast?_range, if_neg (Nat.ne_zero_of_lt hpast)]
        rw [List.length_range]
      rw [hlast, Option.bind_some, hat, Option.map_some, (pass.cut cut hcut').1]
    intro hsome
    exact h.index (by simp [hsome]) hsync
  · obtain rfl : other = tc := Option.some.inj (hother.symm.trans htc)
    exact hwaiting

/-- The head a Stop finds in the pass is a cut past the index or the clearance. -/
theorem latches {tc : Tc} (htc : tc.Carries program) (hfirst : pass.first ≤ tc.slot)
    (hlast : tc.slot ≤ pass.last) (hengaged : tc.active = true ∨ tc.g76PassClearance = 1)
    (hwaiting : tp.waitingForIndex ≠ some tc.id) : tp.inG76CutOrClearance tc = true := by
  obtain ⟨hid, hclearance, hsync⟩ := pass.segment htc hfirst hlast
  unfold Tp.inG76CutOrClearance
  rcases hlast.lt_or_eq with hlt | heq
  · have hactive := hengaged.resolve_right fun hmark => hlt.ne (hclearance.mp hmark)
    simp [hid, pass.passId_ne, hactive, hsync hlt, hwaiting]
  · simp [hid, pass.passId_ne, hclearance.mpr heq]

theorem ending_stop (h : m.Inv program) (hcut : pass.Cutting m) (hengaged : HeadEngaged m) :
    pass.Ending m m.emcmotStop := by
  have hstop := h.emcmotStop
  have hfirst : pass.first ≤ m.completed.length := by
    rcases hcut.2 with hpast | ⟨hpast, -⟩ <;> omega
  obtain ⟨tc, htc, hengaged⟩ := hengaged
  set tp : Tp :=
    { m.tp with stopping := true, stopTc := none, stopTargetPending := false, stopPassId := 0 }
  -- the head may have been given its boundary back, and is otherwise the one found
  obtain ⟨head, hhead, hid, hengaged'⟩ : ∃ head, tp.tpRestoreStepTarget.queue.head? = some head ∧
      head.id = tc.id ∧ (head.active = true ∨ head.g76PassClearance = 1) := by
    rcases restored_head tp with heq | ⟨tc', termCond, htc', heq⟩
    · exact ⟨tc, heq.trans htc, rfl, hengaged⟩
    · obtain rfl : tc' = tc := Option.some.inj (htc'.symm.trans htc)
      exact ⟨_, heq, rfl, hengaged⟩
  have hqueued : Queued program m.completed tp.tpRestoreStepTarget.queue := by
    have hqueue := hstop.queued
    rwa [show m.emcmotStop.tp.queue = tp.tpRestoreStepTarget.queue from
      tp.tpPauseStopping_queue] at hqueue
  obtain ⟨rest, hcons⟩ := List.head?_eq_some_iff.mp hhead
  have hslot : head.slot = m.completed.length := (hcons ▸ hqueued).head_slot
  have hcarries := hqueued.carries head (List.mem_of_head? hhead)
  have hin : tp.inG76CutOrClearance head = true :=
    pass.latches hcarries (hslot ▸ hfirst) (hslot ▸ hcut.1) hengaged'
      (hid ▸ pass.not_waiting h hcut htc)
  have hpass := (pass.segment hcarries (hslot ▸ hfirst) (hslot ▸ hcut.1)).1
  have htp : m.emcmotStop.tp = _ := Tp.tpPauseStopping_latched hhead hin
  refine ⟨hstop, ?_, rfl, ?_, rfl, le_rfl, .inl ⟨hfirst, hcut.1, ?_, ?_, ?_, rfl, ?_⟩⟩
  · rw [htp, Tp.tpRestoreStepTarget_eq]
  · rw [htp]
  · rw [htp]
  · rw [htp]
    exact hpass
  · rw [htp]
  · unfold CoordMotion.delivered
    rw [htp, hpass]
    exact pass.find_clearance hqueued hfirst hcut.1

variable {s m' : CoordMotion} {rest : List Tc} {tc : Tc} {cycle : PlannerCycle} {move : Move}
  {queue : List Tc} {actions : List MotionAction}

theorem blended_still (h : ∀ tc ∈ tp.queue, tc.progressed = false) (blend : TcTermCond) :
    ∀ tc ∈ (tp.blendPrevious blend).queue, tc.progressed = false := by
  unfold Tp.blendPrevious
  split
  · intro tc htc
    obtain ⟨old, hold, heq⟩ := Queued.mem_setTermCond htc
    have hstill := h old hold
    rcases heq with rfl | ⟨-, rfl⟩ <;> exact hstill
  · exact h

theorem delivered_append (hlength : queue.length = m.tp.queue.length) (tc : Tc) (stopTc : Option ℕ) :
    CoordMotion.delivered { m with tp := { m.tp with queue := queue ++ [tc], stopTc } } =
      m.delivered + 1 := by
  unfold CoordMotion.delivered
  rw [List.length_append, hlength]
  rfl

theorem Running.missing_iff (h : pass.Running m) : m.tp.stopTc = none ↔ m.delivered ≤ pass.last := by
  rw [h.target]
  split_ifs with hlt
  · simp [hlt]
  · simp [not_lt.mp hlt]

section

variable (hmove : program[m.delivered]? = some move)

include hmove

/-- As long as the clearance is missing, the next move of the program belongs to the pass. -/
theorem Running.next_move (h : pass.Running m) (nextId : ℤ) (hle : m.delivered ≤ pass.last) :
    move.g76PassId = pass.passId ∧ (move.g76PassClearance = 1 ↔ m.delivered = pass.last) := by
  have hmember : Tc.Carries program (m.newSegment move nextId) := ⟨move, hmove, rfl, rfl, rfl⟩
  have hsegment := pass.segment hmember (Nat.le_add_right_of_le h.started) hle
  exact ⟨hsegment.1, hsegment.2.1⟩

/-- The clearance is bound as the stop target the moment it arrives. -/
theorem Running.target_append (h : pass.Running m) (hstopping : m.tp.stopping = true) (nextId : ℤ) :
    (if move.g76PassClearance = 1 ∧ m.tp.stopping = true ∧ m.tp.stopTargetPending = true ∧
        m.tp.stopTc = none ∧ move.g76PassId = m.tp.stopPassId then some m.delivered
      else m.tp.stopTc) = if pass.last < m.delivered + 1 then some pass.last else none := by
  rcases lt_trichotomy m.delivered pass.last with hlt | heq | hgt
  · -- still a cut
    have hmark := (h.next_move pass hmove nextId hlt.le).2
    rw [if_neg fun hbind => hlt.ne (hmark.mp hbind.1), if_neg (by omega)]
    exact (h.missing_iff pass).mpr hlt.le
  · obtain ⟨hid, hmark⟩ := h.next_move pass hmove nextId heq.le
    rw [if_pos ⟨hmark.mpr heq, hstopping, h.pending, (h.missing_iff pass).mpr heq.le,
      hid.trans h.stopPassId.symm⟩, if_pos (by omega), heq]
  · have hbound : m.tp.stopTc ≠ none := fun hnone =>
      absurd ((h.missing_iff pass).mp hnone) (by omega)
    rw [if_neg fun hbind => hbound hbind.2.2.2.1, if_pos (by omega), h.target, if_pos hgt]

theorem Ending.accepts (h : pass.Ending s m) :
    m.tp.stopTargetPending = true → m.tp.stopTc = none → move.g76PassId = m.tp.stopPassId := by
  intro hpending hnone
  rcases h.phase with hrunning | hfinished
  · have hle := (hrunning.missing_iff pass).mp hnone
    exact (hrunning.next_move pass hmove 0 hle).1.trans hrunning.stopPassId.symm
  · exact Bool.noConfusion (hfinished.pending.symm.trans hpending)

theorem ending_tpAddLine (h : pass.Ending s m) (nextId : ℤ) (blend : TcTermCond) :
    pass.Ending s (m.tpAddLine move nextId blend) := by
  have hinv := h.inv.tpAddLine hmove nextId blend
  rw [CoordMotion.tpAddLine_accepted nextId blend (h.accepts pass hmove) h.unarmed] at hinv ⊢
  refine { h with inv := hinv, phase := ?_ }
  rcases h.phase with hrunning | hfinished
  · refine .inl { hrunning with target := ?_ }
    rw [delivered_append (Tp.blendPrevious_length m.tp blend)]
    exact hrunning.target_append pass hmove h.stopping nextId
  · refine .inr { hfinished with still := fun tc htc => ?_ }
    rcases List.mem_append.mp htc with htc | htc
    · exact blended_still hfinished.still blend tc htc
    · obtain rfl := List.mem_singleton.mp htc
      rfl

end

theorem Running.checkStop_eq (h : pass.Running m) (tc : Tc) (atRest : Bool) :
    m.checkStop tc atRest = m := by
  obtain ⟨tp, _, _, _, _, _, _, _⟩ := m
  obtain ⟨_, _, _, _, _, _, _, _, _, _, _, _, _, _⟩ := tp
  have hpausing := h.pausing
  have hpending := h.pending
  simp_all [CoordMotion.checkStop]

/-- No segment behind the clearance leaves its start before the clearance is complete. -/
theorem not_started (hqueued : Queued program completed queue)
    (hlast : completed.length ≤ pass.last) (htc : tc ∈ queue) (hlater : pass.last < tc.slot) :
    tc.progressed = false := by
  cases hprogressed : tc.progressed with
  | false => rfl
  | true =>
    rcases hqueued.ahead tc htc hprogressed with heq | ⟨heq, hmark⟩
    · omega
    · have hhead : completed.length = pass.last := by omega
      rw [hhead] at hmark
      exact absurd pass.clearance_mark (hmark _ pass.clearance_at)

theorem still_behind_clearance (hqueued : Queued program completed (tc :: rest))
    (hlast : completed.length = pass.last) : ∀ other ∈ rest, other.progressed = false := by
  intro other hother
  obtain ⟨-, hrest⟩ := Consecutive.cons_iff.mp hqueued.consecutive
  have hbound := (hrest.mem_bounds hother).1
  exact pass.not_started hqueued hlast.le (List.mem_cons_of_mem _ hother) (by omega)

/-- What the base planner's part of a cycle leaves alone. -/
theorem advance_frame (m : CoordMotion) (tc : Tc) (rest : List Tc) (cycle : PlannerCycle) :
    (m.advance tc rest cycle).tp.stopping = m.tp.stopping ∧
      (m.advance tc rest cycle).stepping = m.stepping ∧
      (m.tp.stepTargetPending = false → (m.advance tc rest cycle).tp.stepTargetPending = false) ∧
      (m.advance tc rest cycle).failed = m.failed ∧
      m.completed.length ≤ (m.advance tc rest cycle).completed.length := by
  unfold CoordMotion.advance Tp.tpCompleteSegment
  dsimp only
  split_ifs <;> simp

theorem running_advance (h : pass.Running m) (hinv : m.Inv program)
    (hstopping : m.tp.stopping = true) (hstep : m.tp.stepTargetPending = false)
    (hqueue : m.tp.queue = tc :: rest) (hsound : cycle.Sound program m tc) :
    pass.Running (m.advance tc rest cycle) ∨ pass.Finished (m.advance tc rest cycle) := by
  have hqueued : Queued program m.completed (tc :: rest) := hqueue ▸ hinv.queued
  have hslot := hqueued.head_slot
  have hadvanced := hqueued.advance cycle.activates cycle.moves cycle.spills
    fun hspill => (hsound.2.1 hspill).2.1
  have hdelivered : m.delivered = m.completed.length + (rest.length + 1) := by
    unfold CoordMotion.delivered
    rw [hqueue, List.length_cons]
  unfold CoordMotion.advance
  cases hcompletes : cycle.completes with
  | false =>
    refine .inl { h with target := ?_ }
    refine h.target.trans ?_
    rw [hdelivered]
    simp [CoordMotion.delivered]
  | true =>
    rw [if_pos rfl]
    rcases h.ahead.lt_or_eq with hlt | heq
    · -- a cut is complete, and the Stop still waits
      have hother : m.tp.stopTc ≠ some tc.slot := by
        rw [h.target]
        split_ifs
        · exact fun hsome => hlt.ne (hslot.symm.trans (Option.some.inj hsome).symm)
        · exact nofun
      rw [Tp.tpCompleteSegment_other]
      rotate_left
      · exact hother
      · exact hstep
      refine .inl { h with started := ?_, ahead := ?_, target := ?_ }
      · rw [List.length_append]
        exact Nat.le_add_right_of_le h.started
      · rw [List.length_append]
        exact hlt
      · refine h.target.trans ?_
        rw [hdelivered]
        unfold CoordMotion.delivered
        rw [List.length_append, List.tail_cons, List.length_modifyHead, List.length_singleton,
          Nat.add_assoc, Nat.add_comm 1]
    · have htarget : m.tp.stopTc = some tc.slot := by
        rw [h.target, if_pos (by omega), hslot, heq]
      rw [Tp.tpCompleteSegment_target]
      rotate_left
      · exact hstopping
      · exact h.pending
      · exact htarget
      · exact hstep
      refine .inr ⟨?_, rfl, pass.still_behind_clearance hadvanced heq⟩
      rw [List.length_append, heq]
      rfl

theorem finished_advance (h : pass.Finished m) (hstopping : m.tp.stopping = true)
    (hqueue : m.tp.queue = tc :: rest) (hsound : cycle.Sound program m tc) :
    pass.Finished ((m.checkStop tc cycle.atRest).advance tc rest cycle) := by
  obtain ⟨hmoves, hspills, hcompletes, -⟩ := hsound
  have hstill : tc.progressed = false := h.still tc (by rw [hqueue]; exact List.mem_cons_self)
  have hheld : (m.checkStop tc cycle.atRest).tp.holds tc = true := by
    simp [CoordMotion.checkStop, Tp.holds, hstopping, h.pending]
  have hmoves : cycle.moves = false := by
    by_contra hmove
    have := (hmoves (Bool.eq_true_of_not_eq_false hmove)).2 hheld
    exact Bool.noConfusion (hstill.symm.trans this)
  have hspills : cycle.spills = false := by
    by_contra hspill
    have := (hspills (Bool.eq_true_of_not_eq_false hspill)).1
    exact Bool.noConfusion (hmoves.symm.trans this)
  have hcompletes : cycle.completes = false := by
    by_contra hcomplete
    rcases (hcompletes (Bool.eq_true_of_not_eq_false hcomplete)).2 with hprogress | hmove
    · exact Bool.noConfusion (hstill.symm.trans hprogress)
    · exact Bool.noConfusion (hmoves.symm.trans hmove)
  unfold CoordMotion.advance
  rw [hcompletes, if_neg Bool.false_ne_true]
  refine ⟨h.complete, h.pending, fun other hother => ?_⟩
  rcases List.mem_cons.mp hother with rfl | hother
  · rw [hmoves, Bool.or_false]
    exact hstill
  · obtain ⟨old, hold, heq⟩ := Queued.mem_spilled hother
    have hold := h.still old (by rw [hqueue]; exact List.mem_cons_of_mem _ hold)
    rcases heq with rfl | ⟨-, rfl⟩
    · exact hold
    · rw [hspills, Bool.or_false]
      exact hold

theorem ending_tpRunCycle (h : pass.Ending s m) (hok : ∀ tc ∈ m.tp.queue.head?, cycle.Sound program m tc) :
    pass.Ending s (m.tpRunCycle cycle) := by
  have hinv := h.inv.tpRunCycle hok
  cases hqueue : m.tp.queue with
  | nil =>
    rcases h.phase with hrunning | hfinished
    · -- the clearance has not been delivered yet, and the Stop waits for it
      have hnone : m.tp.stopTc = none := by
        apply (hrunning.missing_iff pass).mpr
        have hahead := hrunning.ahead
        unfold CoordMotion.delivered
        rwa [hqueue]
      rw [CoordMotion.tpRunCycle_empty_waiting cycle hqueue h.stopping hrunning.pending
        (hrunning.stopPassId ▸ pass.passId_ne) hnone]
      exact h
    · rw [CoordMotion.tpRunCycle_empty_stopped cycle hqueue h.stopping hfinished.pending] at hinv ⊢
      exact { h with inv := hinv, phase := .inr ⟨hfinished.complete, hfinished.pending, hfinished.still⟩ }
  | cons tc rest =>
    have hsound := hok tc (by rw [hqueue]; rfl)
    rw [CoordMotion.tpRunCycle_cons cycle hqueue] at hinv ⊢
    obtain ⟨hstopping, hstepping, hunarmed, hfailed, hreached⟩ :=
      advance_frame (m.checkStop tc cycle.atRest) tc rest cycle
    refine ⟨hinv, hstopping.trans h.stopping, hstepping.trans h.stepping, ?_,
      hfailed.trans h.failed, h.reached.trans hreached, ?_⟩
    · exact hunarmed h.unarmed
    · rcases h.phase with hrunning | hfinished
      · rw [hrunning.checkStop_eq pass]
        exact pass.running_advance hrunning h.inv h.stopping h.unarmed hqueue hsound
      · exact .inr (pass.finished_advance hfinished h.stopping hqueue hsound)

theorem ending_step {a : MotionAction} (hok : m.Undisturbed program a)
    (hstep : m.step program a = some m') (h : pass.Ending s m) : pass.Ending s m' := by
  cases a with
  | deliver nextId blend =>
    obtain ⟨-, hstep⟩ := Option.ite_none_left_eq_some.mp hstep
    obtain ⟨move, hmove, rfl⟩ := Option.map_eq_some_iff.mp hstep
    exact pass.ending_tpAddLine hmove h nextId blend
  | runCycle cycle =>
    cases hstep
    exact pass.ending_tpRunCycle h hok
  | outputToHal atRest =>
    cases hstep
    refine { h with inv := ⟨h.inv.queued, h.inv.saved, h.inv.index⟩, phase := ?_ }
    rcases h.phase with hrunning | hfinished
    · refine .inl { hrunning with not_stopped := ?_ }
      simp [CoordMotion.outputToHal, hrunning.not_stopped, hrunning.pending]
    · exact .inr { hfinished with }
  | updateStatus execId =>
    cases hstep
    have hidle : m.updateStatus execId = m := by
      unfold CoordMotion.updateStatus
      rw [h.stepping]
      rfl
    rw [hidle]
    exact h
  | stop => exact hok.elim
  | resume => exact hok.elim
  | step execId => exact hok.elim

theorem ending_run {m₀ : CoordMotion} (h₀ : pass.Ending s m₀)
    (hrun : RunWhere (CoordMotion.step program) (CoordMotion.Undisturbed program) m₀ actions m) :
    pass.Ending s m := by
  induction hrun with
  | nil => exact h₀
  | snoc _ hok hstep ih => exact pass.ending_step hok hstep ih

/-- A cycle in which the base planner runs the head of the queue to its end. -/
def runsThrough : PlannerCycle := { activates := true, moves := true, completes := true }

theorem runsThrough_sound (h : pass.Running m) (tc : Tc) : runsThrough.Sound program m tc := by
  refine ⟨fun _ => ⟨.inr rfl, fun hheld => ?_⟩, nofun, fun _ => ⟨.inr rfl, .inr rfl⟩,
    fun hwait => absurd rfl hwait⟩
  rw [h.checkStop_eq pass] at hheld
  simp [Tp.holds, h.pausing, h.pending] at hheld

theorem runsThrough_completes (h : pass.Running m) (hqueue : m.tp.queue = tc :: rest) :
    (m.tpRunCycle runsThrough).completed.length = m.completed.length + 1 ∧
      (m.tpRunCycle runsThrough).delivered = m.delivered := by
  have hcompleted : (m.tpRunCycle runsThrough).completed.length = m.completed.length + 1 := by
    rw [CoordMotion.tpRunCycle_cons _ hqueue, h.checkStop_eq pass]
    exact List.length_append
  refine ⟨hcompleted, ?_⟩
  unfold CoordMotion.delivered
  rw [hcompleted, CoordMotion.tpRunCycle_cons _ hqueue, h.checkStop_eq pass, hqueue]
  have hcompletes : runsThrough.completes = true := rfl
  unfold CoordMotion.advance
  rw [if_pos hcompletes, Tp.tpCompleteSegment_queue, List.tail_cons, List.length_modifyHead,
    List.length_cons]
  omega

theorem move_at (hfirst : pass.first ≤ k) (hlast : k ≤ pass.last) : ∃ move, program[k]? = some move := by
  rcases hlast.lt_or_eq with hlt | rfl
  · obtain ⟨move, -, hmove⟩ := pass.cut_at hfirst hlt
    exact ⟨move, hmove⟩
  · exact ⟨pass.clearance, pass.clearance_at⟩

theorem completed_eq (h : pass.Ending s m) (hfinished : pass.Finished m) :
    m.completed = List.range (pass.last + 1) := by
  rw [h.inv.queued.in_order, hfinished.complete]

theorem finished_reports (h : pass.Ending s m) (hfinished : pass.Finished m) :
    ∃ actions u, RunWhere (CoordMotion.step program) (CoordMotion.Undisturbed program) m actions u ∧
      u.stopped = true ∧ u.completed = List.range (pass.last + 1) := by
  refine ⟨[.outputToHal true], m.outputToHal true, .cons trivial rfl .nil, ?_, ?_⟩
  · simp [CoordMotion.outputToHal, h.stopping, hfinished.pending]
  · have hcompleted : m.completed = List.range (pass.last + 1) := pass.completed_eq h hfinished
    exact hcompleted

/-- How far the pass has come: its moves delivered and its segments completed. -/
def progress (m : CoordMotion) : ℕ := m.completed.length + min m.delivered (pass.last + 1)

/-- Until the clearance is complete, the task can deliver the next move of the pass or the base
planner can run the head of the queue to its end. -/
theorem running_progress (h : pass.Ending s m) (hrunning : pass.Running m) (hfailed : m.failed = false) :
    ∃ a m', m.Undisturbed program a ∧ m.step program a = some m' ∧
      pass.progress m' = pass.progress m + 1 := by
  unfold progress
  by_cases hmissing : m.delivered ≤ pass.last
  · obtain ⟨move, hmove⟩ : ∃ move, program[m.delivered]? = some move :=
      pass.move_at (Nat.le_add_right_of_le hrunning.started) hmissing
    refine ⟨.deliver 0 .stop, m.tpAddLine move 0 .stop, trivial, ?_, ?_⟩
    · simp [CoordMotion.step, hfailed, hmove]
    · rw [CoordMotion.tpAddLine_accepted 0 .stop (h.accepts pass hmove) h.unarmed,
        delivered_append (Tp.blendPrevious_length m.tp .stop)]
      dsimp only
      omega
  · obtain ⟨tc, rest, hqueue⟩ : ∃ tc rest, m.tp.queue = tc :: rest := by
      cases hqueue : m.tp.queue with
      | nil =>
        unfold CoordMotion.delivered at hmissing
        rw [hqueue] at hmissing
        exact absurd hrunning.ahead hmissing
      | cons tc rest => exact ⟨tc, rest, rfl⟩
    obtain ⟨hcompleted, hdelivered⟩ := pass.runsThrough_completes hrunning hqueue
    refine ⟨.runCycle runsThrough, m.tpRunCycle runsThrough,
      fun tc _ => pass.runsThrough_sound hrunning tc, rfl, ?_⟩
    rw [hcompleted, hdelivered]
    omega

/-- From every state of a Stop that is ending there is a run that completes the pass and reports
stopped; the induction is on what is missing to that. -/
theorem can_finish (n : ℕ) (h : pass.Ending s m) (hfailed : m.failed = false)
    (hn : 2 * (pass.last + 1) ≤ n + pass.progress m) :
    ∃ actions u, RunWhere (CoordMotion.step program) (CoordMotion.Undisturbed program) m actions u ∧
      u.stopped = true ∧ u.completed = List.range (pass.last + 1) := by
  induction n generalizing m with
  | zero =>
    rcases h.phase with hrunning | hfinished
    · have hahead := hrunning.ahead
      unfold progress at hn
      omega
    · exact pass.finished_reports h hfinished
  | succ n ih =>
    rcases h.phase with hrunning | hfinished
    · obtain ⟨a, m', hok, hstep, hprogress⟩ := pass.running_progress h hrunning hfailed
      have hending := pass.ending_step hok hstep h
      have hfailed' : m'.failed = false := hending.failed.trans (h.failed ▸ hfailed)
      obtain ⟨actions, u, hrun, hu⟩ := ih hending hfailed' (by omega)
      exact ⟨a :: actions, u, .cons hok hstep hrun, hu⟩
    · exact pass.finished_reports h hfinished

/-- A Stop taken in a G76 pass that finds an active cut or the clearance at the head of the queue
ends at the clearance of that pass. -/
theorem g76Stop_ends_at_clearance {actions after : List MotionAction} {s t : CoordMotion}
    (hrun : RunWhere (CoordMotion.step program) (CoordMotion.Planned program) {} actions s)
    (hcut : pass.Cutting s) (hengaged : HeadEngaged s)
    (hafter : RunWhere (CoordMotion.step program) (CoordMotion.Undisturbed program) s.emcmotStop
      after t) :
    pass.StopsAtClearance s t := by
  have hinv := CoordMotion.inv_run CoordMotion.inv_initial hrun
  have hending := pass.ending_run (pass.ending_stop hinv hcut hengaged) hafter
  refine ⟨⟨t.completed.length, hending.reached, ?_, hending.inv.queued.in_order⟩, ?_, ?_,
    hending.failed, ?_, fun hfailed => pass.can_finish _ hending hfailed (Nat.le_add_right _ _)⟩
  · rcases hending.phase with hrunning | hfinished
    · exact hrunning.ahead.trans (Nat.le_succ _)
    · exact hfinished.complete.le
  · rcases hending.phase with hrunning | hfinished
    · intro tc htc hlater
      exact pass.not_started hending.inv.queued hrunning.ahead htc hlater
    · exact fun tc htc _ => hfinished.still tc htc
  · intro hstopped
    rcases hending.phase with hrunning | hfinished
    · exact Bool.noConfusion (hrunning.not_stopped.symm.trans hstopped)
    · exact pass.completed_eq hending hfinished
  · intro hlast tc _
    rcases hending.phase with hrunning | hfinished
    · simp [Tp.holds, hrunning.pausing, hrunning.pending]
    · have := hfinished.complete
      omega

/-- The approach, two cuts and the clearance of one pass, and a move after it. -/
def taperedProgram : List Move :=
  [{ g76PassId := 1, g76PassClearance := 2, termCond := .stop },
    { synchronized := .position, g76PassId := 1 }, { synchronized := .position, g76PassId := 1 },
    { g76PassId := 1, g76PassClearance := 1 }, {}]

def taperedPass : G76Pass taperedProgram where
  passId := 1
  before := [{ g76PassId := 1, g76PassClearance := 2, termCond := .stop }]
  cuts := [{ synchronized := .position, g76PassId := 1 }, { synchronized := .position, g76PassId := 1 }]
  clearance := { g76PassId := 1, g76PassClearance := 1 }
  later := [{}]
  program_eq := rfl
  passId_ne := by decide
  cut := by decide
  clearance_id := rfl
  clearance_mark := rfl

/-- Approach and cuts are queued, the approach is complete, and the entry taper has passed the index
it waited for. -/
def toEntryTaper : List MotionAction :=
  [.deliver 7 .stop, .deliver 7 .stop, .deliver 7 .tangent, .runCycle runsThrough,
    .runCycle { activates := true, waitingForIndex := some 7 }, .runCycle { moves := true }]

def after (m : CoordMotion) (actions : List MotionAction) : CoordMotion :=
  (exec (CoordMotion.step taperedProgram) m actions).getD m

/-- The taper and the cut run out, the queue is empty until the clearance and the next move arrive,
and motion comes to rest at the clearance. -/
def toClearance : List MotionAction :=
  [.runCycle { moves := true, spills := true, completes := true }, .runCycle runsThrough,
    .runCycle {}, .outputToHal true, .deliver 7 .stop, .deliver 8 .stop,
    .runCycle runsThrough, .runCycle { atRest := true, activates := true }]

/-- A Stop in the entry taper, before the clearance is delivered. -/
theorem g76Stop_ends_at_clearance_tapered : ∃ s t : CoordMotion,
    RunWhere (CoordMotion.step taperedProgram) (CoordMotion.Planned taperedProgram) {} toEntryTaper s ∧
      taperedPass.Cutting s ∧ HeadEngaged s ∧
      RunWhere (CoordMotion.step taperedProgram) (CoordMotion.Undisturbed taperedProgram) s.emcmotStop
        toClearance t ∧
      t.stopped = true ∧ taperedPass.StopsAtClearance s t := by
  have hrun : RunWhere (CoordMotion.step taperedProgram) (CoordMotion.Planned taperedProgram) {}
      toEntryTaper (after {} toEntryTaper) := .of_exec rfl
  have hafter : RunWhere (CoordMotion.step taperedProgram) (CoordMotion.Undisturbed taperedProgram)
      (after {} toEntryTaper).emcmotStop toClearance
      (after (after {} toEntryTaper).emcmotStop toClearance) := .of_exec rfl
  have hcut : taperedPass.Cutting (after {} toEntryTaper) :=
    ⟨by decide, .inr ⟨rfl, _, rfl, rfl, by decide⟩⟩
  have hengaged : HeadEngaged (after {} toEntryTaper) := ⟨_, rfl, .inl rfl⟩
  exact ⟨_, _, hrun, hcut, hengaged, hafter, rfl,
    taperedPass.g76Stop_ends_at_clearance hrun hcut hengaged hafter⟩

/-- The taper has run into the cut and is complete; the cut is not active yet. -/
def toHandOver : List MotionAction :=
  toEntryTaper ++ [.runCycle { moves := true, spills := true, completes := true }]

/-- The taper is complete before the cut is delivered. -/
def toEmptyQueue : List MotionAction :=
  [.deliver 7 .stop, .deliver 7 .stop, .runCycle runsThrough,
    .runCycle { activates := true, waitingForIndex := some 7 }, .runCycle runsThrough]

/-- A Stop in the pass after which motion reports stopped although only the approach and the taper
are complete. -/
def StopsInGroove (actions afterStop : List MotionAction) (s t : CoordMotion) : Prop :=
  RunWhere (CoordMotion.step taperedProgram) (CoordMotion.Planned taperedProgram) {} actions s ∧
    taperedPass.Cutting s ∧
    RunWhere (CoordMotion.step taperedProgram) (CoordMotion.Undisturbed taperedProgram) s.emcmotStop
      afterStop t ∧
    t.stopped = true ∧ t.completed = [0, 1] ∧ ¬ taperedPass.StopsAtClearance s t

theorem stopsInGroove_after {afterStop : List MotionAction}
    (hrun : execWhere (CoordMotion.step taperedProgram) (CoordMotion.Planned taperedProgram) {}
      actions = some (after {} actions))
    (hcut : 1 < (after {} actions).completed.length ∧ (after {} actions).completed.length ≤ 3)
    (hafter : execWhere (CoordMotion.step taperedProgram) (CoordMotion.Undisturbed taperedProgram)
      (after {} actions).emcmotStop afterStop = some (after (after {} actions).emcmotStop afterStop))
    (hstopped : (after (after {} actions).emcmotStop afterStop).stopped = true)
    (hcompleted : (after (after {} actions).emcmotStop afterStop).completed = [0, 1]) :
    StopsInGroove actions afterStop (after {} actions)
      (after (after {} actions).emcmotStop afterStop) := by
  refine ⟨.of_exec hrun, ⟨hcut.2, .inl hcut.1⟩, .of_exec hafter, hstopped, hcompleted, ?_⟩
  intro hends
  have hall := hends.stopped_after hstopped
  rw [hcompleted] at hall
  cases hall

/-- A Stop between the entry taper and the cut, before the cut is activated: the cut slows down in
the groove. A Stop while the queue is empty between them: motion reports stopped at once. -/
theorem g76Stop_in_the_groove : (∃ s t, StopsInGroove toHandOver [.deliver 7 .stop,
        .runCycle { activates := true, moves := true }, .outputToHal true] s t ∧
      ∃ cut ∈ t.tp.queue.head?, cut.slot = 2 ∧ cut.progressed = true) ∧
    ∃ s t, StopsInGroove toEmptyQueue [.runCycle {}] s t :=
  ⟨⟨_, _, stopsInGroove_after rfl (by decide) rfl rfl rfl, _, rfl, rfl, rfl⟩,
    ⟨_, _, stopsInGroove_after rfl (by decide) rfl rfl rfl⟩⟩

end G76Pass

end LinuxcncCtrl
