import LinuxcncCtrl.Lib.Counting
import LinuxcncCtrl.Sanity.BoundedExecutor
import LinuxcncCtrl.Spec.ExecutorPool

/-! What a step of an `ExecutorPool` can do. -/

namespace LinuxcncCtrl

open Lib

namespace ExecutorPool

variable {τ : Type} {pool pool' : ExecutorPool τ}

def released (pool : ExecutorPool τ) (index : ℕ) (item : ExecutorItem τ) : ExecutorPool τ :=
  { pool with
    active := pool.active - 1
    workers := pool.workers.set index .ready
    finished := pool.finished ++ [item] }

inductive Stepped (pool : ExecutorPool τ) : PoolAction τ → ExecutorPool τ → Prop
  | unchanged {action : PoolAction τ} : Stepped pool action pool
  | accepted {task : τ} {cleanup : Bool} {executor : BoundedExecutor τ}
      (hsubmit : pool.executor.submitImpl task cleanup = some executor) :
      Stepped pool (.submit (some task) cleanup) { pool with
        executor
        notifying := pool.notifying + 1
        accepted := pool.accepted ++ [⟨task, cleanup⟩] }
  | unheard (hnone : pool.noWaiter = true) :
      Stepped pool (.notifyOne none) { pool with notifying := pool.notifying - 1 }
  | wokeWorker {index : ℕ} (hworker : pool.workers[index]? = some .blocked) :
      Stepped pool (.notifyOne (some (.worker index))) { pool with
        notifying := pool.notifying - 1
        workers := pool.workers.set index .ready }
  | wokeDrainer {index : ℕ} {drainers : List DrainPhase} :
      Stepped pool (.notifyOne (some (.drainer index))) { pool with
        notifying := pool.notifying - 1
        drainers }
  | stopAdmission : Stepped pool .stopAdmission pool.stopAdmission
  | drainers {action : PoolAction τ} {drainers : List DrainPhase} :
      Stepped pool action { pool with drainers }
  | shutdown (hrunning : pool.executor.stopping = false) :
      Stepped pool (.shutdown true) { pool with
        executor := { pool.executor with accepting := false, stopping := true }
        draining := true
        notifyingAll := true }
  | shutdownNow (hrunning : pool.executor.stopping = false) :
      Stepped pool (.shutdown false) { pool with
        executor := { pool.executor with
          accepting := false
          stopping := true
          queue := []
          ordinaryQueued := 0 }
        draining := false
        notifyingAll := true }
  | notifyAll : Stepped pool .notifyAll { pool with notifyingAll := false }.notifyAll
  | take {index : ℕ} {item : ExecutorItem τ} {queue : List (ExecutorItem τ)}
      {executor : BoundedExecutor τ} (hworker : pool.workers[index]? = some .ready)
      (hqueue : pool.executor.queue = item :: queue)
      (htake : pool.executor.take 0 = some (item.task, executor)) :
      Stepped pool (.worker index) { pool with
        executor
        active := pool.active + 1
        workers := pool.workers.set index (.running item)
        started := pool.started ++ [item] }
  | exit {index : ℕ} (hworker : pool.workers[index]? = some .ready)
      (hqueue : pool.executor.queue = []) (hstopping : pool.executor.stopping = true) :
      Stepped pool (.worker index) { pool with workers := pool.workers.set index .exited }
  | block {index : ℕ} (hworker : pool.workers[index]? = some .ready)
      (hqueue : pool.executor.queue = []) :
      Stepped pool (.worker index) { pool with workers := pool.workers.set index .blocked }
  | finish {index : ℕ} {item : ExecutorItem τ}
      (hworker : pool.workers[index]? = some (.running item)) :
      Stepped pool (.worker index) (pool.released index item)
  | finishLast {index : ℕ} {item : ExecutorItem τ}
      (hworker : pool.workers[index]? = some (.running item)) :
      Stepped pool (.worker index) (pool.released index item).notifyAll

theorem wake_wake (worker : WorkerPhase τ) : worker.wake.wake = worker.wake := by
  cases worker <;> rfl

theorem notifyAll_notifyAll (pool : ExecutorPool τ) : pool.notifyAll.notifyAll = pool.notifyAll := by
  have hdrainers : ∀ drainer : DrainPhase, drainer.wake.wake = drainer.wake := by
    intro drainer
    cases drainer <;> rfl
  unfold notifyAll
  simp only [List.map_map]
  congr 1
  · exact List.map_congr_left fun worker _ => wake_wake worker
  · exact List.map_congr_left fun drainer _ => hdrainers drainer

theorem finishItem_cases (pool : ExecutorPool τ) (index : ℕ) (item : ExecutorItem τ) :
    pool.finishItem index item = pool.released index item ∨
      pool.finishItem index item = (pool.released index item).notifyAll := by
  unfold finishItem released
  dsimp only
  split_ifs
  · exact .inr (notifyAll_notifyAll _)
  · exact .inr rfl
  · exact .inr rfl
  · exact .inl rfl

theorem take_stepped {index : ℕ} (hworker : pool.workers[index]? = some .ready) :
    Stepped pool (.worker index) (pool.takeItem index) := by
  unfold takeItem
  cases hqueue : pool.executor.queue with
  | nil =>
    simp only [List.head?_nil]
    split_ifs with hstopping
    · exact .exit hworker hqueue hstopping
    · exact .block hworker hqueue
  | cons item queue =>
    have htake : ∃ executor, pool.executor.take 0 = some (item.task, executor) := by
      unfold BoundedExecutor.take
      rw [hqueue]
      exact ⟨_, rfl⟩
    obtain ⟨executor, htake⟩ := htake
    simp only [List.head?_cons, htake]
    exact .take hworker hqueue htake

theorem notifyOne_stepped {waiter : Option Waiter} (h : pool.notifyOne waiter = some pool') :
    Stepped pool (.notifyOne waiter) pool' := by
  obtain ⟨-, h⟩ := Option.ite_none_left_eq_some.mp h
  cases waiter with
  | none =>
    obtain ⟨hnone, h⟩ := Option.ite_none_right_eq_some.mp h
    obtain rfl := Option.some.inj h
    exact .unheard hnone
  | some waiter =>
    cases waiter with
    | worker index =>
      dsimp only at h
      split at h
      · next hworker =>
        obtain rfl := Option.some.inj h
        exact .wokeWorker hworker
      · cases h
    | drainer index =>
      dsimp only at h
      split at h
      · obtain rfl := Option.some.inj h
        exact .wokeDrainer
      · cases h

theorem stepped {action : PoolAction τ} (h : pool.step action = some pool') :
    Stepped pool action pool' := by
  cases action with
  | submit task cleanup =>
    cases h
    unfold ExecutorPool.submitImpl
    cases task with
    | none => exact .unchanged
    | some task =>
      dsimp only
      split
      · exact .unchanged
      · next hsubmit => exact .accepted hsubmit
  | notifyOne waiter => exact notifyOne_stepped h
  | stopAdmission =>
    cases h
    exact .stopAdmission
  | drain =>
    cases h
    exact .drainers
  | drainer index =>
    dsimp only [ExecutorPool.step] at h
    unfold ExecutorPool.drainer at h
    split at h
    · split_ifs at h
      · cases h
        exact .drainers
      · cases h
        exact .drainers
    · cases h
  | shutdown drain =>
    cases h
    unfold ExecutorPool.shutdown
    split_ifs with hstopping hdrain
    · exact .unchanged
    · rw [hdrain]
      exact .shutdown (Bool.eq_false_of_not_eq_true hstopping)
    · rw [Bool.eq_false_of_not_eq_true hdrain]
      exact .shutdownNow (Bool.eq_false_of_not_eq_true hstopping)
  | notifyAll =>
    obtain ⟨-, ⟨⟩⟩ := Option.ite_none_right_eq_some.mp h
    exact .notifyAll
  | worker index =>
    dsimp only [ExecutorPool.step] at h
    split at h
    · next hworker =>
      cases h
      exact take_stepped hworker
    · next item hworker =>
      cases h
      rcases pool.finishItem_cases index item with hfinish | hfinish
      · rw [hfinish]
        exact .finish hworker
      · rw [hfinish]
        exact .finishLast hworker
    · cases h

theorem running_notifyAll (pool : ExecutorPool τ) : pool.notifyAll.running = pool.running := by
  unfold running notifyAll
  rw [List.filterMap_map]
  congr 1
  funext worker
  cases worker <;> rfl

theorem not_blocked_wake (worker : WorkerPhase τ) : worker.wake.isBlocked = false := by
  cases worker <;> rfl

end ExecutorPool

end LinuxcncCtrl
