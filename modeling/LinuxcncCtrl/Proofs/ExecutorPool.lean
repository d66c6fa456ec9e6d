import LinuxcncCtrl.Sanity.ExecutorPool

/-! The threads of a `BoundedExecutor`: whether a queued task can be left without anyone to run it, and
what the queue keeps of its limits and of the order of admission. -/

namespace LinuxcncCtrl

open Lib

namespace ExecutorPool

variable {τ : Type} {pool pool' : ExecutorPool τ} {threads capacity cleanupReserve : ℕ}

theorem create_eq (h : create threads capacity cleanupReserve = some pool) :
    threads ≠ 0 ∧ cleanupReserve ≤ capacity ∧
      pool = { executor := { capacity, cleanupReserve }, workers := List.replicate threads .ready } := by
  obtain ⟨hlimits, h⟩ := Option.ite_none_left_eq_some.mp h
  rw [not_or, not_or] at hlimits
  exact ⟨hlimits.1, not_lt.mp hlimits.2.2, (Option.some.inj h).symm⟩

/-- While there is work somebody is awake, or is going to be woken. -/
structure Attended (pool : ExecutorPool τ) : Prop where
  workers : pool.workers ≠ []
  attended : pool.executor.queue ≠ [] → pool.executor.stopping = false →
    0 < pool.notifying ∨ ∃ worker ∈ pool.workers, worker.isBlocked = false

variable {index : ℕ} {workers : List (WorkerPhase τ)} {action : PoolAction τ} {before : WorkerPhase τ}

theorem awake_set
    (h : workers[index]? = some before) (after : WorkerPhase τ) (hawake : after.isBlocked = false) :
    ∃ worker ∈ workers.set index after, worker.isBlocked = false :=
  ⟨after, List.mem_set (List.getElem?_eq_some_iff.mp h).1 after, hawake⟩

theorem awake_wake (h : workers ≠ []) :
    ∃ worker ∈ workers.map WorkerPhase.wake, worker.isBlocked = false := by
  obtain ⟨worker, hworker⟩ := List.exists_mem_of_ne_nil workers h
  exact ⟨worker.wake, List.mem_map_of_mem hworker, not_blocked_wake worker⟩

theorem Attended.step (h : pool.Attended) (hok : pool.ReachesWorker action)
    (hstepped : Stepped pool action pool') : pool'.Attended := by
  have hset : ∀ index (phase : WorkerPhase τ), pool.workers.set index phase ≠ [] := by
    intro index phase
    simpa using h.workers
  have hmap : ∀ {workers : List (WorkerPhase τ)}, workers ≠ [] → workers.map WorkerPhase.wake ≠ [] := by
    intro workers hworkers hnil
    exact hworkers (List.map_eq_nil_iff.mp hnil)
  cases hstepped with
  | unchanged => exact h
  | accepted => exact ⟨h.workers, fun _ _ => .inl (Nat.succ_pos _)⟩
  | unheard hnone =>
    -- the notification met nobody, so every worker is awake
    refine ⟨h.workers, fun _ _ => .inr ?_⟩
    obtain ⟨worker, hworker⟩ := List.exists_mem_of_ne_nil _ h.workers
    have hall := List.all_eq_true.mp (Bool.and_eq_true_iff.mp hnone).1 worker hworker
    exact ⟨worker, hworker, by simpa using hall⟩
  | wokeWorker hworker => exact ⟨hset _ _, fun _ _ => .inr (awake_set hworker _ rfl)⟩
  | wokeDrainer => exact ⟨h.workers, fun _ _ => .inr hok⟩
  | stopAdmission => exact ⟨h.workers, h.attended⟩
  | drainers => exact ⟨h.workers, h.attended⟩
  | shutdown => exact ⟨h.workers, fun _ hrunning => nomatch hrunning⟩
  | shutdownNow => exact ⟨h.workers, fun _ hrunning => nomatch hrunning⟩
  | notifyAll => exact ⟨hmap h.workers, fun _ _ => .inr (awake_wake h.workers)⟩
  | take hworker => exact ⟨hset _ _, fun _ _ => .inr (awake_set hworker _ rfl)⟩
  | exit hworker => exact ⟨hset _ _, fun _ _ => .inr (awake_set hworker _ rfl)⟩
  | block hworker hqueue => exact ⟨hset _ _, fun hwork => absurd hqueue hwork⟩
  | finish hworker => exact ⟨hset _ _, fun _ _ => .inr (awake_set hworker _ rfl)⟩
  | finishLast hworker => exact ⟨hmap (hset _ _), fun _ _ => .inr (awake_wake (hset _ _))⟩

/-- No task is left behind when no notification of a submitter goes to a caller of `drain` while every
worker waits. -/
theorem executor_notStuck {start : ExecutorPool τ}
    (hcreate : create threads capacity cleanupReserve = some start) {actions : List (PoolAction τ)}
    (hrun : RunWhere ExecutorPool.step ReachesWorker start actions pool) : ¬ pool.Stuck := by
  obtain ⟨hthreads, -, rfl⟩ := create_eq hcreate
  have hattended : pool.Attended := by
    apply hrun.invariant
    · refine ⟨?_, fun hqueue => absurd rfl hqueue⟩
      simpa using hthreads
    · intro before action after hok hstep hbefore
      exact hbefore.step hok (stepped hstep)
  rintro ⟨hqueue, hrunning, hblocked, hnotifying⟩
  rcases hattended.attended hqueue hrunning with hpending | ⟨worker, hworker, hawake⟩
  · exact absurd hnotifying (Nat.pos_iff_ne_zero.mp hpending)
  · rw [hblocked worker hworker] at hawake
    cases hawake

def oneThread : ExecutorPool ℕ :=
  { executor := { capacity := 4, cleanupReserve := 1 }, workers := [.ready] }

/-- A submission while the only worker waits, with its notification. -/
def notified : ExecutorPool ℕ :=
  { oneThread with
    executor := { oneThread.executor with queue := [⟨7, false⟩], ordinaryQueued := 1 }
    accepted := [⟨7, false⟩] }

theorem executor_notStuck_notified : RunWhere ExecutorPool.step ReachesWorker oneThread
        [.worker 0, .submit (some 7) false, .notifyOne (some (.worker 0))] notified ∧
      ¬ notified.Stuck := by
  have hcreate : create 1 4 1 = some oneThread := rfl
  have hrun : RunWhere ExecutorPool.step ReachesWorker oneThread
      [.worker 0, .submit (some 7) false, .notifyOne (some (.worker 0))] notified :=
    .of_exec (by decide +kernel)
  exact ⟨hrun, executor_notStuck hcreate hrun⟩

/-- `drain` is called between a submission and its notification, and gets the notification. -/
def stuck : ExecutorPool ℕ :=
  { oneThread with
    executor := { oneThread.executor with queue := [⟨7, false⟩], ordinaryQueued := 1 }
    workers := [.blocked]
    drainers := [.blocked]
    accepted := [⟨7, false⟩] }

theorem executor_stuck : create 1 4 1 = some oneThread ∧ Run ExecutorPool.step oneThread
        [.worker 0, .submit (some 7) false, .drain, .drainer 0, .notifyOne (some (.drainer 0)),
          .drainer 0] stuck ∧
      stuck.Stuck :=
  ⟨rfl, .of_exec (by decide +kernel), by decide +kernel, rfl, by decide +kernel, rfl⟩

structure Orderly (pool : ExecutorPool τ) : Prop where
  counted : pool.executor.Counted
  capacity : pool.executor.queue.length ≤ pool.executor.capacity
  order : ∃ dropped, pool.accepted = pool.started ++ pool.executor.queue ++ dropped ∧
    (dropped ≠ [] → pool.executor.stopping = true ∧ pool.draining = false)
  running : pool.started.Perm (pool.finished ++ pool.running)
  exited : .exited ∈ pool.workers → pool.executor.stopping = true ∧ pool.executor.queue = []

/-- A worker that was not running an item does not run one now either. -/
theorem running_set {after : WorkerPhase τ}
    (hworker : pool.workers[index]? = some before) (hbefore : before.item = none)
    (hafter : after.item = none) :
    ((pool.workers.set index after).filterMap WorkerPhase.item).Perm pool.running := by
  have hperm := filterMap_set_perm WorkerPhase.item hworker after
  rwa [hbefore, hafter] at hperm

theorem exited_set {phase : WorkerPhase τ}
    (h : .exited ∈ pool.workers.set index phase) (hphase : phase ≠ .exited) : .exited ∈ pool.workers :=
  (List.mem_or_eq_of_mem_set h).resolve_right hphase.symm

theorem exited_wake (h : .exited ∈ workers.map WorkerPhase.wake) : .exited ∈ workers := by
  obtain ⟨worker, hworker, hwake⟩ := List.mem_map.mp h
  cases worker with
  | exited => exact hworker
  | ready => cases hwake
  | blocked => cases hwake
  | running item => cases hwake

variable {item : ExecutorItem τ}

section

variable (h : pool.Orderly)

include h

theorem Orderly.released (hworker : pool.workers[index]? = some (.running item)) :
    (pool.released index item).Orderly := by
  refine ⟨h.counted, h.capacity, h.order, ?_, fun hexited => h.exited (exited_set hexited nofun)⟩
  have hperm := filterMap_set_perm WorkerPhase.item hworker .ready
  unfold ExecutorPool.running ExecutorPool.released
  refine h.running.trans ?_
  rw [List.append_assoc]
  exact hperm.symm.append_left _

theorem Orderly.notifyAll : pool.notifyAll.Orderly :=
  ⟨h.counted, h.capacity, h.order, by rw [running_notifyAll]; exact h.running,
    fun hexited => h.exited (exited_wake hexited)⟩

theorem Orderly.take {queue : List (ExecutorItem τ)} {executor : BoundedExecutor τ}
    (hworker : pool.workers[index]? = some .ready) (hqueue : pool.executor.queue = item :: queue)
    (htake : pool.executor.take 0 = some (item.task, executor)) :
    ({ pool with
      executor
      active := pool.active + 1
      workers := pool.workers.set index (.running item)
      started := pool.started ++ [item] } : ExecutorPool τ).Orderly := by
  have hcounted := h.counted.take htake
  obtain ⟨first, -, -, rfl⟩ := BoundedExecutor.take_some htake
  obtain ⟨dropped, haccepted, hdropped⟩ := h.order
  have hcapacity := h.capacity
  rw [hqueue] at haccepted hcapacity
  have hrest : pool.executor.queue.eraseIdx 0 = queue := by rw [hqueue]; rfl
  refine ⟨hcounted, ?_, ⟨dropped, ?_, hdropped⟩, ?_, fun hexited => ?_⟩
  · rw [hrest]
    exact Nat.le_of_succ_le hcapacity
  · rw [hrest, haccepted]
    simp
  · have hperm := filterMap_set_perm WorkerPhase.item hworker (.running item)
    have hstarted : (pool.started ++ [item]).Perm (pool.finished ++ pool.running ++ [item]) :=
      h.running.append_right _
    refine hstarted.trans ?_
    rw [List.append_assoc]
    exact (List.perm_append_comm.trans hperm.symm).append_left _
  · have hnil := (h.exited (exited_set hexited nofun)).2
    rw [hqueue] at hnil
    cases hnil

theorem Orderly.step (hstepped : Stepped pool action pool') : pool'.Orderly := by
  obtain ⟨dropped, haccepted, hdropped⟩ := h.order
  cases hstepped with
  | unchanged => exact h
  | accepted hsubmit =>
    have hrunning := BoundedExecutor.submitImpl_running hsubmit
    have hcounted := h.counted.submitImpl hsubmit
    obtain ⟨hroom, -, rfl⟩ := BoundedExecutor.submitImpl_some hsubmit
    have hnil : dropped = [] := by
      by_contra hne
      exact absurd ((hdropped hne).1.symm.trans hrunning) (by decide)
    refine ⟨hcounted, ?_, ⟨[], ?_, fun hne => absurd rfl hne⟩, h.running, fun hexited => ?_⟩
    · simpa using hroom
    · rw [haccepted, hnil]
      simp
    · exact absurd ((h.exited hexited).1.symm.trans hrunning) (by decide)
  | unheard => exact { h with }
  | wokeWorker hworker =>
    exact ⟨h.counted, h.capacity, h.order,
      h.running.trans ((running_set hworker rfl rfl).symm.append_left _),
      fun hexited => h.exited (exited_set hexited nofun)⟩
  | wokeDrainer => exact { h with }
  | stopAdmission =>
    exact ⟨{ h.counted with }, h.capacity, h.order, h.running,
      h.exited⟩
  | drainers => exact { h with }
  | shutdown hrunning =>
    refine ⟨{ h.counted with }, h.capacity,
      ⟨dropped, haccepted, fun hne => ?_⟩, h.running, fun hexited => ⟨rfl, (h.exited hexited).2⟩⟩
    exact absurd ((hdropped hne).1.symm.trans hrunning) (by decide)
  | shutdownNow =>
    refine ⟨⟨h.counted.reserve, rfl, Nat.zero_le _⟩, Nat.zero_le _,
      ⟨pool.executor.queue ++ dropped, ?_, fun _ => ⟨rfl, rfl⟩⟩, h.running, fun _ => ⟨rfl, rfl⟩⟩
    rw [haccepted]
    simp
  | notifyAll =>
    apply Orderly.notifyAll
    exact { h with }
  | take hworker hqueue htake => exact h.take hworker hqueue htake
  | exit hworker hqueue hstopping =>
    exact ⟨h.counted, h.capacity, h.order,
      h.running.trans ((running_set hworker rfl rfl).symm.append_left _), fun _ => ⟨hstopping, hqueue⟩⟩
  | block hworker =>
    exact ⟨h.counted, h.capacity, h.order,
      h.running.trans ((running_set hworker rfl rfl).symm.append_left _),
      fun hexited => h.exited (exited_set hexited nofun)⟩
  | finish hworker => exact h.released hworker
  | finishLast hworker => exact (h.released hworker).notifyAll

theorem Orderly.accounts : pool.Accounts := by
  refine ⟨h.capacity, h.counted.ordinary, h.counted.bounded, fun item hitem hordinary => ?_,
    fun hrunning hreserve task => ?_⟩
  · rw [h.counted.ordinary]
    exact List.countP_pos_iff.mpr ⟨item, List.mem_of_mem_head? hitem, by rw [hordinary]; rfl⟩
  have hroom := h.counted.room hreserve
  have haccepts : ∃ executor, pool.executor.submitImpl task true = some executor := by
    unfold BoundedExecutor.submitImpl
    rw [if_neg (by simp [hrunning]), if_neg (not_le.mpr hroom), if_neg (by simp)]
    exact ⟨_, rfl⟩
  obtain ⟨executor, hsubmit⟩ := haccepts
  unfold submitImpl
  simp only [hsubmit]

/-- Nothing is dropped from an executor that is drained, and nothing is left of it. -/
theorem Orderly.drained (hworkers : pool.workers ≠ []) (hdrained : pool.Drained) :
    pool.started = pool.accepted ∧ pool.finished.Perm pool.accepted := by
  obtain ⟨-, hdraining, hexited⟩ := hdrained
  obtain ⟨dropped, haccepted, hdropped⟩ := h.order
  obtain ⟨worker, hworker⟩ := List.exists_mem_of_ne_nil _ hworkers
  have hqueue := (h.exited (hexited worker hworker ▸ hworker)).2
  have hnil : dropped = [] := by
    by_contra hne
    exact absurd ((hdropped hne).2.symm.trans hdraining) (by decide)
  have hrunning : pool.running = [] := by
    refine List.filterMap_eq_nil_iff.mpr fun worker hworker => ?_
    rw [hexited worker hworker]
    rfl
  have hstarted : pool.started = pool.accepted := by
    rw [haccepted, hqueue, hnil, List.append_nil, List.append_nil]
  have hfinished := h.running
  rw [hrunning, List.append_nil, hstarted] at hfinished
  exact ⟨hstarted, hfinished.symm⟩

end

theorem workers_length (h : Stepped pool action pool') : pool'.workers.length = pool.workers.length := by
  cases h with
  | wokeWorker => exact List.length_set
  | take => exact List.length_set
  | exit => exact List.length_set
  | block => exact List.length_set
  | finish => exact List.length_set
  | notifyAll => exact List.length_map _
  | finishLast => exact (List.length_map _).trans List.length_set
  | _ => rfl

/-- The queue keeps within its limits, cleanup always finds its reserve, items are started in the order
in which they were admitted, and each runs exactly once if the executor is drained. -/
theorem executor_orderly {start : ExecutorPool τ}
    (hcreate : create threads capacity cleanupReserve = some start) {actions : List (PoolAction τ)}
    (hrun : Run ExecutorPool.step start actions pool) :
    pool.Accounts ∧ pool.started <+: pool.accepted ∧
      (∃ unfinished, pool.started.Perm (pool.finished ++ unfinished)) ∧
      (pool.Drained → pool.started = pool.accepted ∧ pool.finished.Perm pool.accepted) := by
  obtain ⟨hthreads, hreserve, rfl⟩ := create_eq hcreate
  have hinv : pool.Orderly ∧ pool.workers.length = threads := by
    apply hrun.invariant
    · refine ⟨⟨⟨hreserve, rfl, Nat.zero_le _⟩, Nat.zero_le _, ⟨[], rfl, fun hne => absurd rfl hne⟩, ?_,
        fun hexited => ?_⟩, List.length_replicate⟩
      · simp [running, WorkerPhase.item]
      · cases List.eq_of_mem_replicate hexited
    · intro before action after hstep hbefore
      have hstepped := stepped hstep
      exact ⟨hbefore.1.step hstepped, (workers_length hstepped).trans hbefore.2⟩
  obtain ⟨horderly, hlength⟩ := hinv
  refine ⟨horderly.accounts, ?_, ⟨pool.running, horderly.running⟩, horderly.drained ?_⟩
  · obtain ⟨dropped, haccepted, -⟩ := horderly.order
    rw [haccepted, List.append_assoc]
    exact List.prefix_append _ _
  · intro hnil
    rw [hnil] at hlength
    exact hthreads hlength.symm

/-- Three ordinary items fill their part of the queue, a fourth is refused and a cleanup admitted; then the
executor is drained. -/
def drainedActions : List (PoolAction ℕ) :=
  [.submit (some 1) false, .submit (some 2) false, .submit (some 3) false, .submit (some 4) false,
    .submit (some 5) true, .notifyOne none, .shutdown true, .notifyAll] ++
    List.replicate 9 (.worker 0)

def drained : ExecutorPool ℕ :=
  { executor := { capacity := 4, cleanupReserve := 1, accepting := false, stopping := true }
    workers := [.exited]
    notifying := 3
    accepted := [⟨1, false⟩, ⟨2, false⟩, ⟨3, false⟩, ⟨5, true⟩]
    started := [⟨1, false⟩, ⟨2, false⟩, ⟨3, false⟩, ⟨5, true⟩]
    finished := [⟨1, false⟩, ⟨2, false⟩, ⟨3, false⟩, ⟨5, true⟩] }

theorem executor_orderly_drained :
    Run ExecutorPool.step oneThread drainedActions drained ∧ drained.Drained ∧ drained.Accounts ∧
      drained.finished.Perm drained.accepted := by
  have hcreate : create 1 4 1 = some oneThread := rfl
  have hrun : Run ExecutorPool.step oneThread drainedActions drained := .of_exec (by decide +kernel)
  have hdrained : drained.Drained := ⟨rfl, rfl, by decide⟩
  obtain ⟨haccounts, -, -, hall⟩ := executor_orderly hcreate hrun
  exact ⟨hrun, hdrained, haccounts, (hall hdrained).2⟩

end ExecutorPool

end LinuxcncCtrl
