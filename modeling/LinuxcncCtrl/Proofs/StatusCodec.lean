import LinuxcncCtrl.Spec.StatusCodec

/-! A delta carries exactly what changed. The sub-delta of a record reports no change only between equal
records, and playing it back on the old record gives the new one. -/

namespace LinuxcncCtrl

open Lib

variable {F : Type} [DecidableEq F] {previous current : LinuxCNCStat F} {sequence : UInt64}
  {delta : LinuxCNCStatDelta F}

section Units

variable {α : Type} [DecidableEq α]

@[simp] theorem copyChanged_getD (previous current : α) :
    (copyChanged previous current).getD previous = current := by
  unfold copyChanged
  split_ifs with h
  · rfl
  · exact not_not.mp h

@[simp] theorem replaceIf_copyRepeated (previous current : List α) :
    replaceIf (decide (previous ≠ current)) (copyRepeated previous current) previous = current := by
  unfold replaceIf copyRepeated
  by_cases h : previous = current
  · simp [h]
  · simp [h]

end Units

/-- A sub-record is sent only when it reports a change, and is rebuilt either way. -/
theorem applyPresent {α δ : Type} {apply : δ → α → α} {delta : δ} {changed : Bool}
    {previous current : α} (hsame : changed = false ↔ previous = current)
    (happly : apply delta previous = current) :
    (((if changed then some delta else none).map (apply · previous)).getD previous) = current := by
  cases changed with
  | false => simpa using hsame
  | true => simpa using happly

theorem taskChanged_eq_false_iff (previous current : TaskStat F) :
    (copyTaskDelta previous current).2 = false ↔ previous = current := by
  constructor
  · intro h
    simp only [copyTaskDelta, taskChanged, decide_eq_false_iff_not, not_or, not_not, ne_eq] at h
    simp only [TaskStat.ext_iff, h, and_self]
  · rintro rfl
    simp [copyTaskDelta, taskChanged]

theorem applyTaskDelta_copyTaskDelta (previous current : TaskStat F) :
    applyTaskDelta (copyTaskDelta previous current).1 previous = current := by
  simp only [applyTaskDelta, copyTaskDelta, copyChanged_getD, replaceIf_copyRepeated]

theorem trajectoryChanged_eq_false_iff (previous current : TrajectoryStat F) :
    (copyTrajectoryDelta previous current).2 = false ↔ previous = current := by
  constructor
  · intro h
    simp only [copyTrajectoryDelta, trajectoryChanged, decide_eq_false_iff_not, not_or, not_not, ne_eq] at h
    simp only [TrajectoryStat.ext_iff, h, and_self]
  · rintro rfl
    simp [copyTrajectoryDelta, trajectoryChanged]

theorem applyTrajectoryDelta_copyTrajectoryDelta (previous current : TrajectoryStat F) :
    applyTrajectoryDelta (copyTrajectoryDelta previous current).1 previous = current := by
  simp only [applyTrajectoryDelta, copyTrajectoryDelta, copyChanged_getD, replaceIf_copyRepeated]

theorem motionChanged_eq_false_iff (previous current : MotionStat F) :
    (copyMotionDelta previous current).2 = false ↔ previous = current := by
  constructor
  · intro h
    simp only [copyMotionDelta, decide_eq_false_iff_not, not_or, not_not, ne_eq,
      Bool.not_eq_true, trajectoryChanged_eq_false_iff, indexedDiff_eq_nil_iff] at h
    simp only [MotionStat.ext_iff, h, and_self]
  · rintro rfl
    simp [copyMotionDelta, trajectoryChanged_eq_false_iff, indexedDiff_eq_nil_iff]

theorem applyMotionDelta_copyMotionDelta (previous current : MotionStat F) :
    applyMotionDelta (copyMotionDelta previous current).1 previous = current := by
  have htraj := applyPresent (trajectoryChanged_eq_false_iff previous.traj current.traj)
    (applyTrajectoryDelta_copyTrajectoryDelta previous.traj current.traj)
  simp only [applyMotionDelta, copyMotionDelta, htraj, indexedApply_indexedDiff, replaceIf_copyRepeated]

theorem ioChanged_eq_false_iff (previous current : IoStat) :
    (copyIoDelta previous current).2 = false ↔ previous = current := by
  simp [copyIoDelta, IoStat.ext_iff]

theorem applyIoDelta_copyIoDelta (previous current : IoStat) :
    applyIoDelta (copyIoDelta previous current).1 previous = current := by
  simp only [applyIoDelta, copyIoDelta, copyChanged_getD]

theorem makeStatusDelta_eq_none_iff (previous current : LinuxCNCStat F) (sequence : UInt64) :
    makeStatusDelta previous current sequence = none ↔ previous = current := by
  constructor
  · intro h
    simp only [makeStatusDelta, ite_eq_right_iff, reduceCtorEq, imp_false, not_or, not_not, ne_eq,
      Bool.not_eq_true, taskChanged_eq_false_iff, motionChanged_eq_false_iff,
      ioChanged_eq_false_iff] at h
    simp only [LinuxCNCStat.ext_iff, h, and_self]
  · rintro rfl
    simp [makeStatusDelta, taskChanged_eq_false_iff, motionChanged_eq_false_iff, ioChanged_eq_false_iff]

/-- Between any two wire messages a delta that is made rebuilds the newer one. -/
theorem applyDelta_makeStatusDelta (h : makeStatusDelta previous current sequence = some delta) :
    applyDelta delta previous = current := by
  have htask := applyPresent (taskChanged_eq_false_iff previous.task current.task)
    (applyTaskDelta_copyTaskDelta previous.task current.task)
  have hmotion := applyPresent (motionChanged_eq_false_iff previous.motion current.motion)
    (applyMotionDelta_copyMotionDelta previous.motion current.motion)
  have hio := applyPresent (ioChanged_eq_false_iff previous.io current.io)
    (applyIoDelta_copyIoDelta previous.io current.io)
  have htable : ((if previous.toolTable ≠ current.toolTable then
      some (ToolTableDelta.mk current.toolTable) else none).map (·.tools)).getD
        previous.toolTable = current.toolTable := by
    by_cases ht : previous.toolTable = current.toolTable <;> simp [ht]
  simp only [makeStatusDelta, Option.ite_none_right_eq_some] at h
  obtain ⟨-, h⟩ := h
  rw [← Option.some.inj h]
  simp only [applyDelta, copyChanged_getD, htask, hmotion, hio, htable]

/-- For every two samples: no delta exactly when their encodings agree, and every delta rebuilds the
encoding of the newer sample from that of the older. -/
theorem statusDelta_roundTrip [Zero F] (p c : NmlStatusSnapshot F) (s : UInt64) :
    (makeStatusDelta (encodeStatus p) (encodeStatus c) s = none ↔ encodeStatus p = encodeStatus c) ∧
    (∀ delta, makeStatusDelta (encodeStatus p) (encodeStatus c) s = some delta →
      applyDelta delta (encodeStatus p) = encodeStatus c) :=
  ⟨makeStatusDelta_eq_none_iff _ _ s, fun _ h => applyDelta_makeStatusDelta h⟩

end LinuxcncCtrl
