import LinuxcncCtrl.Spec.CallbackRuntime

/-! What a submission to a `BoundedExecutor` and a worker that takes an item do to its queue. -/

namespace LinuxcncCtrl

namespace BoundedExecutor

variable {τ : Type} {executor executor' : BoundedExecutor τ} {task : τ} {cleanup : Bool} {index : ℕ}

theorem submitImpl_running (h : executor.submitImpl task cleanup = some executor') :
    executor.stopping = false := by
  obtain ⟨hopen, -⟩ := Option.ite_none_left_eq_some.mp h
  exact Bool.eq_false_of_not_eq_true (not_or.mp hopen).1

theorem submitImpl_some (h : executor.submitImpl task cleanup = some executor') :
    executor.queue.length < executor.capacity ∧
      (cleanup = false → executor.ordinaryQueued < executor.capacity - executor.cleanupReserve) ∧
      executor' =
        { executor with
          queue := executor.queue ++ [⟨task, cleanup⟩]
          ordinaryQueued := executor.ordinaryQueued + (!cleanup).toNat } := by
  obtain ⟨-, h⟩ := Option.ite_none_left_eq_some.mp h
  obtain ⟨hlength, h⟩ := Option.ite_none_left_eq_some.mp h
  obtain ⟨hordinary, h⟩ := Option.ite_none_left_eq_some.mp h
  refine ⟨not_le.mp hlength, fun hcleanup => ?_, (Option.some.inj h).symm⟩
  exact not_le.mp fun hle => hordinary ⟨hcleanup, hle⟩

theorem submitCleanup_cases (executor : BoundedExecutor τ) (task : τ) :
    (executor.submitCleanup task = { executor with queue := executor.queue ++ [⟨task, true⟩] }) ∨
      (executor.stopping = true ∨ executor.capacity ≤ executor.queue.length) ∧
        executor.submitCleanup task = { executor with refused := executor.refused ++ [task] } := by
  unfold submitCleanup submitImpl
  simp only [Bool.true_eq_false, false_and, or_false, if_false, Bool.not_true, Bool.toNat_false,
    Nat.add_zero]
  split_ifs with hstopping hfull
  · exact .inr ⟨.inl hstopping, rfl⟩
  · exact .inr ⟨.inr hfull, rfl⟩
  · exact .inl rfl

theorem take_some (h : executor.take index = some (task, executor')) :
    ∃ item, executor.queue[index]? = some item ∧ item.task = task ∧ executor' = { executor with
          queue := executor.queue.eraseIdx index
          ordinaryQueued := executor.ordinaryQueued - (!item.cleanup).toNat } := by
  obtain ⟨item, hitem, htaken⟩ := Option.map_eq_some_iff.mp h
  cases htaken
  exact ⟨item, hitem, rfl, rfl⟩

theorem eraseIdx_perm {queue : List (ExecutorItem τ)} {item : ExecutorItem τ}
    (h : queue[index]? = some item) : (item :: queue.eraseIdx index).Perm queue := by
  obtain ⟨hlt, rfl⟩ := List.getElem?_eq_some_iff.mp h
  exact List.getElem_cons_eraseIdx_perm hlt

structure Counted (executor : BoundedExecutor τ) : Prop where
  reserve : executor.cleanupReserve ≤ executor.capacity
  ordinary : executor.ordinaryQueued = executor.queue.countP fun item => !item.cleanup
  bounded : executor.ordinaryQueued ≤ executor.capacity - executor.cleanupReserve

theorem Counted.length (h : executor.Counted) :
    executor.queue.length = executor.queue.countP ExecutorItem.cleanup + executor.ordinaryQueued := by
  rw [h.ordinary, List.length_eq_countP_add_countP ExecutorItem.cleanup]
  simp only [Bool.not_eq_true, Bool.decide_eq_false]

/-- While the reserve is not used up the queue is not full, however much ordinary work there is. -/
theorem Counted.room (h : executor.Counted)
    (hreserve : executor.queue.countP ExecutorItem.cleanup < executor.cleanupReserve) :
    executor.queue.length < executor.capacity := by
  have hlength := h.length
  have hbounded := h.bounded
  have hle := h.reserve
  omega

theorem Counted.submitImpl (h : executor.Counted)
    (hsubmit : executor.submitImpl task cleanup = some executor') : executor'.Counted := by
  obtain ⟨-, hordinary, rfl⟩ := submitImpl_some hsubmit
  have hbounded := h.bounded
  refine ⟨h.reserve, ?_, ?_⟩
  · simp only [List.countP_append, h.ordinary, List.countP_singleton]
    cases cleanup <;> rfl
  · cases cleanup with
    | true => exact hbounded
    | false => exact hordinary rfl

theorem Counted.take (h : executor.Counted)
    (htake : executor.take index = some (task, executor')) : executor'.Counted := by
  obtain ⟨item, hitem, -, rfl⟩ := take_some htake
  have hordinary := (eraseIdx_perm hitem).countP_eq fun item => !item.cleanup
  rw [List.countP_cons, ← h.ordinary] at hordinary
  refine ⟨h.reserve, ?_, Nat.le_trans (Nat.sub_le _ _) h.bounded⟩
  cases hc : item.cleanup <;> simp [hc] at hordinary ⊢ <;> omega

/-- A place of the cleanup reserve is left, or the queue is not full. -/
def Room (executor : BoundedExecutor τ) : Prop :=
  executor.queue.countP ExecutorItem.cleanup < executor.cleanupReserve ∨
    executor.queue.length < executor.capacity

instance (executor : BoundedExecutor τ) : Decidable executor.Room := inferInstanceAs (Decidable (_ ∨ _))

/-- The accounting of an executor that is not stopping and has refused no cleanup. -/
structure Admits (executor : BoundedExecutor τ) : Prop where
  reserve : executor.cleanupReserve ≤ executor.capacity
  running : executor.stopping = false
  ordinary : executor.ordinaryQueued = executor.queue.countP fun item => !item.cleanup
  bounded : executor.ordinaryQueued ≤ executor.capacity - executor.cleanupReserve
  refused : executor.refused = []

theorem Admits.counted (h : executor.Admits) : executor.Counted := { h with }

theorem Counted.admits (h : executor.Counted) (hrunning : executor.stopping = false)
    (hrefused : executor.refused = []) : executor.Admits :=
  ⟨h.reserve, hrunning, h.ordinary, h.bounded, hrefused⟩

theorem Admits.submit (h : executor.Admits) (hsubmit : executor.submit task = some executor') :
    executor'.Admits := by
  have hcounted := h.counted.submitImpl hsubmit
  obtain ⟨-, -, rfl⟩ := submitImpl_some hsubmit
  exact hcounted.admits h.running h.refused

theorem Admits.submitCleanup (h : executor.Admits) (task : τ) (hroom : executor.Room) :
    (executor.submitCleanup task).Admits := by
  have hlength : executor.queue.length < executor.capacity := hroom.elim h.counted.room id
  rcases executor.submitCleanup_cases task with haccepted | ⟨hstopping | hfull, -⟩
  · rw [haccepted]
    refine { h with ordinary := ?_ }
    simp [List.countP_append, h.ordinary]
  · cases h.running.symm.trans hstopping
  · exact absurd hlength (not_lt.mpr hfull)

theorem Admits.take (h : executor.Admits) (htake : executor.take index = some (task, executor')) :
    executor'.Admits := by
  have hcounted := h.counted.take htake
  obtain ⟨item, hitem, -, rfl⟩ := take_some htake
  exact hcounted.admits h.running h.refused

end BoundedExecutor

end LinuxcncCtrl
