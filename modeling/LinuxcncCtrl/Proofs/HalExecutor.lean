import LinuxcncCtrl.Spec.HalExecutor

/-! Whether the response that a poll returns was committed for its request. The identifier of an open request
belongs to it alone as long as nobody else has it when the request begins. -/

namespace LinuxcncCtrl

open Lib

namespace HalExecutor

variable {executor executor' : HalExecutor}

/-- The identifier of the open request stands for that request wherever it occurs. -/
structure Opened (executor : HalExecutor) (id : UInt32) (request : ℕ) : Prop where
  active : executor.active = true
  pin : executor.requestId = { value := id, writer := some request }
  jobs : ∀ job ∈ executor.jobs, job.id = id ↔ job.writer = some request
  answered : executor.responseId.value = id → executor.responseId.writer = some request ∧
    executor.state.writer = some request ∧ executor.result.writer = some request

/-- A poll that has found its identifier still finds it, and has read what was written for the request. -/
def Polls (executor : HalExecutor) (id : UInt32) (request : ℕ) : PollPhase → Prop
  | .idle => True
  | .matched idWriter => executor.responseId.value = id ∧ idWriter = some request
  | .stateRead idWriter state =>
    executor.responseId.value = id ∧ idWriter = some request ∧ state.writer = some request

theorem Polls.kept {id : UInt32} {request : ℕ} {phase : PollPhase} (h : executor.Polls id request phase)
    (hkept : executor.responseId.value = id → executor'.responseId.value = id) :
    executor'.Polls id request phase := by
  cases phase with
  | idle => trivial
  | matched idWriter => exact ⟨hkept h.1, h.2⟩
  | stateRead idWriter state => exact ⟨hkept h.1, h.2⟩

structure Inv (executor : HalExecutor) : Prop where
  request : ∀ n, executor.requestId.writer = some n → n ≤ executor.requests
  jobs : ∀ job ∈ executor.jobs, ∀ n, job.writer = some n → n ≤ executor.requests
  opened : ∀ id request, executor.operation = some (id, request) →
    executor.Opened id request ∧ executor.Polls id request executor.polling
  idle : executor.operation = none → executor.polling = .idle
  responses : ∀ polled ∈ executor.responses, polled.Own

section

variable (h : executor.Inv)

include h

theorem Inv.not_open (hactive : executor.active = false) : executor.operation = none := by
  cases hoperation : executor.operation with
  | none => rfl
  | some operation =>
    obtain ⟨id, request⟩ := operation
    have hopened := (h.opened id request hoperation).1
    cases hopened.active.symm.trans hactive

theorem Inv.begin {opcode : ℤ} (hfresh : executor.Fresh (.begin opcode))
    (hbegin : executor.begin opcode = some executor') : executor'.Inv := by
  obtain ⟨hpin, hjobs⟩ := hfresh
  obtain ⟨hidle, hbegin⟩ := Option.ite_none_left_eq_some.mp hbegin
  obtain ⟨-, ⟨⟩⟩ := Option.ite_none_left_eq_some.mp hbegin
  have hnone := h.not_open (Bool.eq_false_of_not_eq_true (not_or.mp hidle).2)
  refine ⟨fun n hn => ?_, fun job hjob n hn => ?_, fun id request hoperation => ?_, nofun, h.responses⟩
  · exact (Option.some.inj hn).symm.le
  · exact Nat.le_succ_of_le (h.jobs job hjob n hn)
  · cases hoperation
    refine ⟨⟨rfl, rfl, fun job hjob => ?_, fun hanswered => absurd hanswered hpin⟩, ?_⟩
    · refine iff_of_false (hjobs job hjob) fun hwriter => ?_
      exact absurd (h.jobs job hjob _ hwriter) (Nat.not_succ_le_self _)
    · rw [h.idle hnone]
      trivial

theorem Inv.beginFails {idWritten : Bool} (hbegin : executor.beginFails idWritten = some executor') :
    executor'.Inv := by
  obtain ⟨hidle, ⟨⟩⟩ := Option.ite_none_left_eq_some.mp hbegin
  have hnone := h.not_open (Bool.eq_false_of_not_eq_true (not_or.mp hidle).2)
  refine ⟨fun n hn => ?_, fun job hjob n hn => Nat.le_succ_of_le (h.jobs job hjob n hn),
    fun id request hoperation => ?_, h.idle, h.responses⟩
  · split_ifs at hn
    · exact (Option.some.inj hn).symm.le
    · exact Nat.le_succ_of_le (h.request n hn)
  · cases hoperation.symm.trans hnone

theorem Inv.pollId (hpoll : executor.pollId = some executor') : executor'.Inv := by
  unfold HalExecutor.pollId at hpoll
  split at hpoll
  · next id request hoperation hpolling =>
    split_ifs at hpoll with hmatches
    · cases hpoll
      refine ⟨h.request, h.jobs, fun openId openRequest hopen => ?_, fun hnone => ?_, h.responses⟩
      · cases hoperation.symm.trans hopen
        obtain ⟨hopened, -⟩ := h.opened id request hoperation
        exact ⟨{ hopened with }, hmatches,
          (hopened.answered hmatches).1⟩
      · cases hoperation.symm.trans hnone
    · cases hpoll
      exact h
  · cases hpoll

theorem Inv.pollState (hpoll : executor.pollState = some executor') : executor'.Inv := by
  unfold HalExecutor.pollState at hpoll
  split at hpoll
  · next idWriter hpolling =>
    cases hpoll
    refine ⟨h.request, h.jobs, fun id request hopen => ?_, fun hnone => ?_, h.responses⟩
    · obtain ⟨hopened, hpolls⟩ := h.opened id request hopen
      rw [hpolling] at hpolls
      obtain ⟨hmatches, hwriter⟩ := hpolls
      exact ⟨{ hopened with }, hmatches, hwriter,
        (hopened.answered hmatches).2.1⟩
    · exact absurd (hpolling.symm.trans (h.idle hnone)) nofun
  · cases hpoll

theorem Inv.pollResult (hpoll : executor.pollResult = some executor') : executor'.Inv := by
  unfold HalExecutor.pollResult at hpoll
  split at hpoll
  · next id request idWriter state hoperation hpolling =>
    cases hpoll
    obtain ⟨hopened, hpolls⟩ := h.opened id request hoperation
    rw [hpolling] at hpolls
    obtain ⟨hmatches, hid, hstate⟩ := hpolls
    refine ⟨h.request, h.jobs, fun openId openRequest hopen => ?_, fun _ => rfl, fun polled hpolled => ?_⟩
    · obtain ⟨hopened, -⟩ := h.opened openId openRequest hopen
      exact ⟨{ hopened with }, trivial⟩
    · rcases List.mem_append.mp hpolled with hold | hnew
      · exact h.responses polled hold
      · rw [List.mem_singleton.mp hnew]
        exact ⟨hid, hstate, (hopened.answered hmatches).2.2⟩
  · cases hpoll

theorem Inv.finish {cancel : Bool} (hfinish : executor.finish cancel = some executor') : executor'.Inv := by
  unfold HalExecutor.finish at hfinish
  split at hfinish
  · next hoperation hpolling =>
    dsimp only at hfinish
    split_ifs at hfinish
    · cases hfinish
      exact ⟨h.request, h.jobs, nofun, fun _ => hpolling, h.responses⟩
    · cases hfinish
      exact ⟨h.request, h.jobs, nofun, fun _ => hpolling, h.responses⟩
  · cases hfinish

theorem Inv.read :
    ({ executor with
      jobs := executor.jobs ++
        [{ id := executor.requestId.value, writer := executor.requestId.writer }] } : HalExecutor).Inv := by
  refine ⟨h.request, fun job hjob n hn => ?_, fun id request hopen => ?_, h.idle, h.responses⟩
  · rcases List.mem_append.mp hjob with hold | hnew
    · exact h.jobs job hold n hn
    · rw [List.mem_singleton.mp hnew] at hn
      exact h.request n hn
  · obtain ⟨hopened, hpolls⟩ := h.opened id request hopen
    refine ⟨{ hopened with jobs := fun job hjob => ?_ }, hpolls.kept fun h => h⟩
    rcases List.mem_append.mp hjob with hold | hnew
    · exact hopened.jobs job hold
    · rw [List.mem_singleton.mp hnew, hopened.pin]
      exact iff_of_true rfl rfl

/-- The state and result pins are written for the open request if its response stands. -/
theorem Inv.write {state result : HalPin ℤ}
    (hwriter : ∀ id request, executor.operation = some (id, request) → executor.responseId.value = id →
      executor.state.writer = some request → executor.result.writer = some request →
      state.writer = some request ∧ result.writer = some request) :
    ({ executor with state, result } : HalExecutor).Inv := by
  refine { h with opened := fun id request hopen => ?_ }
  obtain ⟨hopened, hpolls⟩ := h.opened id request hopen
  refine ⟨{ hopened with answered := fun hanswered => ?_ }, hpolls.kept fun h => h⟩
  obtain ⟨hid, hstate, hresult⟩ := hopened.answered hanswered
  exact ⟨hid, hwriter id request hopen hanswered hstate hresult⟩

theorem Inv.commit {job : ℕ} (hcommit : executor.commit job = some executor') : executor'.Inv := by
  unfold HalExecutor.commit at hcommit
  split at hcommit
  · cases hcommit
  · next job hjob =>
    obtain ⟨⟨hstate, hresult⟩, ⟨⟩⟩ := Option.ite_none_right_eq_some.mp hcommit
    refine { h with opened := fun id request hopen => ?_ }
    obtain ⟨hopened, hpolls⟩ := h.opened id request hopen
    have hown := hopened.jobs job (List.mem_of_getElem? hjob)
    -- the response that stands was written for the request, and so is the one that replaces it
    have hkept : executor.responseId.value = id → job.id = id := by
      intro hanswered
      exact hown.mpr (hstate.symm.trans (hopened.answered hanswered).2.1)
    refine ⟨{ hopened with answered := fun hid => ?_ }, hpolls.kept hkept⟩
    have hwriter := hown.mp hid
    exact ⟨hwriter, hstate.trans hwriter, hresult.trans hwriter⟩

theorem Inv.forget (job : ℕ) : ({ executor with jobs := executor.jobs.eraseIdx job } : HalExecutor).Inv := by
  have hsubset : ∀ kept ∈ executor.jobs.eraseIdx job, kept ∈ executor.jobs :=
    fun kept hkept => List.mem_of_mem_eraseIdx hkept
  refine ⟨h.request, fun kept hkept => h.jobs kept (hsubset kept hkept), fun id request hopen => ?_, h.idle,
    h.responses⟩
  obtain ⟨hopened, hpolls⟩ := h.opened id request hopen
  exact ⟨{ hopened with jobs := fun kept hkept => hopened.jobs kept (hsubset kept hkept) }, hpolls.kept fun h => h⟩

theorem Inv.step {action : HalExecutorAction} (hfresh : executor.Fresh action)
    (hstep : executor.step action = some executor') : executor'.Inv := by
  cases action with
  | begin opcode => exact h.begin hfresh hstep
  | beginFails idWritten => exact h.beginFails hstep
  | pollId => exact h.pollId hstep
  | pollState => exact h.pollState hstep
  | pollResult => exact h.pollResult hstep
  | finish cancel => exact h.finish hstep
  | read =>
    cases hstep
    exact h.read
  | writeState job state =>
    cases hstep
    exact h.write fun id request hopen hanswered _ hresult =>
      ⟨hfresh (id, request) hopen hanswered, hresult⟩
  | writeResult job result =>
    cases hstep
    exact h.write fun id request hopen hanswered hstate _ =>
      ⟨hstate, hfresh (id, request) hopen hanswered⟩
  | commit job => exact h.commit hstep
  | forget job =>
    cases hstep
    exact h.forget job

end

/-- A response is that of its own request when the identifier of no request is in use as the request begins,
and the responder leaves state and result alone while a response stands. -/
theorem executor_response_fresh {responseId : UInt32} {state result : ℤ}
    {actions : List HalExecutorAction}
    (hrun : RunWhere HalExecutor.step Fresh (start responseId state result) actions executor) :
    ∀ polled ∈ executor.responses, polled.Own := by
  have hinv : executor.Inv := by
    apply hrun.invariant ⟨nofun, nofun, nofun, fun _ => rfl, nofun⟩
    intro before action after hfresh hstep hbefore
    exact hbefore.step hfresh hstep
  exact hinv.responses

/-- Request 1 is cancelled before the responder commits it, and request 2 is answered. -/
def lateCommit : List HalExecutorAction :=
  [.begin 7, .read, .writeState (some 0) 4, .writeResult (some 0) 11, .finish true, .begin 8, .commit 0,
    .pollId, .read, .writeState (some 1) 5, .writeResult (some 1) 22, .commit 1, .pollId, .pollState,
    .pollResult, .finish false]

def lateCommitted : HalExecutor :=
  (execWhere HalExecutor.step Fresh (start 0 0 0) lateCommit).getD (start 0 0 0)

theorem executor_response_fresh_lateCommit :
    lateCommitted.responses =
        [{ request := 2
           response := { outcome := .failed, result := 22 }
           idWriter := some 2
           stateWriter := some 2
           resultWriter := some 2 }] ∧
      ∀ polled ∈ lateCommitted.responses, polled.Own :=
  ⟨by decide +kernel, executor_response_fresh (.getD_exec (by decide +kernel))⟩

/-- The response pin has 1 on it when the component is made, and the state that of a success. The first request
is reported as done, and no responder has done anything. -/
theorem executor_response_stale :
    ∃ executor, Run HalExecutor.step (start 1 4 0) [.begin 7, .pollId, .pollState, .pollResult] executor ∧
      executor.responses =
        [{ request := 1
           response := { outcome := .succeeded, result := 0 }
           idWriter := none
           stateWriter := none
           resultWriter := none }] :=
  ⟨_, .of_exec rfl, rfl⟩

end HalExecutor

end LinuxcncCtrl
