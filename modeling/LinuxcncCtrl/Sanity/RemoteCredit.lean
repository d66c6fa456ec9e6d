import LinuxcncCtrl.Sanity.RemoteReactor
import LinuxcncCtrl.Spec.RemoteComponentStream

/-! What each callback of a reactor does to its read credit, exactly. While the stream is going, a callback
keeps the credit of the reactor and of its requests in the executor together. -/

namespace LinuxcncCtrl

variable {F : Type}

namespace Reactor

variable {reactor reactor₀ reactor' : Reactor F} {executor executor' : BoundedExecutor (HalTask F)}
  {change : ℕ}

def Going (reactor : Reactor F) : Prop :=
  reactor.writeFinish.terminationRequested = false ∧ reactor.finishAfterResponses = false

/-- The gate is open until a finish has started, and a going stream that writes nothing has nothing
queued and no read to resume. -/
structure Sane (reactor : Reactor F) : Prop where
  gated : reactor.gate = .opened → reactor.writeFinish.finishStarted = false
  opened : reactor.writeFinish.terminationRequested = false → reactor.gate = .opened
  idle : reactor.Going → reactor.writeFinish.writeInFlight = false →
    reactor.outbox = [] ∧ reactor.resumeReadWhenIdle = false

def requests (executor : BoundedExecutor (HalTask F)) : ℕ :=
  executor.queue.countP fun item => item.task.isConsume

structure Settles (change : ℕ) (reactor : Reactor F) (executor : BoundedExecutor (HalTask F))
    (updated : Reactor F × BoundedExecutor (HalTask F)) : Prop where
  sane : updated.1.Sane
  going : updated.1.Going → reactor.Going
  le : updated.1.credit + requests updated.2 ≤ reactor.credit + requests executor + change
  eq : updated.1.Going → updated.1.credit + requests updated.2 = reactor.credit + requests executor + change

theorem requests_submitCleanup (executor : BoundedExecutor (HalTask F)) (proxyId : HalName)
    (generation : ℕ) : requests (executor.submitCleanup (.detach proxyId generation)) = requests executor := by
  rcases executor.submitCleanup_cases (.detach proxyId generation) with haccepted | ⟨-, hrefused⟩
  · rw [haccepted]
    simp [requests, HalTask.isConsume]
  · rw [hrefused]
    rfl

theorem requests_submit {proxyId : HalName} {generation : ℕ} {request : HalComponentClientMessage F}
    (h : executor.submit (.consume 0 proxyId generation request) = some executor') :
    requests executor' = requests executor + 1 := by
  obtain ⟨-, -, rfl⟩ := BoundedExecutor.submitImpl_some h
  simp [requests, HalTask.isConsume]

theorem Sane.requestFinish (h : reactor₀.gate = .opened → reactor₀.writeFinish.finishStarted = false)
    (status : GrpcStatus) : (reactor₀.requestFinish status).Sane ∧ ¬ (reactor₀.requestFinish status).Going := by
  obtain ⟨gate, writeFinish, heq, -, hrequested, hgate, hstarted⟩ := requestFinish_eq reactor₀ status
  rw [heq]
  have hnot : ¬ (writeFinish.terminationRequested = false) := by simp [hrequested]
  refine ⟨⟨fun hopen => ?_, fun hfalse => absurd hfalse hnot, fun hgoing => absurd hgoing.1 hnot⟩,
    fun hgoing => hnot hgoing.1⟩
  rw [hstarted hopen]
  rcases hgate with hsame | ⟨hopen', -⟩
  · exact h (hsame.symm.trans hopen)
  · exact h hopen'

theorem Settles.of_ended {updated : Reactor F × BoundedExecutor (HalTask F)}
    (hsane : updated.1.Sane) (hended : ¬ updated.1.Going)
    (hle : updated.1.credit + requests updated.2 ≤ reactor.credit + requests executor + change) :
    Settles change reactor executor updated :=
  ⟨hsane, fun hgoing => absurd hgoing hended, hle, fun hgoing => absurd hgoing hended⟩

theorem Settles.of_kept (hsane : reactor'.Sane) (hgoing : reactor'.Going → reactor.Going)
    (hcredit : reactor'.credit = reactor.credit + change) : Settles change reactor executor (reactor', executor) := by
  refine ⟨hsane, hgoing, ?_, fun _ => ?_⟩ <;> (dsimp only; omega)

section

variable (hgated : reactor₀.gate = .opened → reactor₀.writeFinish.finishStarted = false)

include hgated

theorem Settles.of_requestFinish {status : GrpcStatus}
    (hcredit : (reactor₀.requestFinish status).credit ≤ reactor.credit + change)
    (hrequests : requests executor' = requests executor) :
    Settles change reactor executor (reactor₀.requestFinish status, executor') := by
  obtain ⟨hsane, hended⟩ := Sane.requestFinish hgated status
  refine .of_ended hsane hended ?_
  dsimp only
  omega

theorem settles_requestFinish (hcredit : reactor₀.credit ≤ reactor.credit + change)
    (hrequests : requests executor' = requests executor) (status : GrpcStatus) :
    Settles change reactor executor (reactor₀.requestFinish status, executor') :=
  .of_requestFinish hgated ((credit_requestFinish reactor₀ status).trans hcredit) hrequests

theorem settles_terminate (hcredit : reactor₀.credit ≤ reactor.credit + change)
    (executor : BoundedExecutor (HalTask F)) (status : GrpcStatus) :
    Settles change reactor executor (reactor₀.terminate executor status) := by
  unfold terminate detachTransport
  split_ifs
  · exact settles_requestFinish hgated hcredit rfl status
  · refine settles_requestFinish ?_ ?_ (requests_submitCleanup ..) status
    · exact hgated
    · exact hcredit

end

section

variable (h : reactor.Sane) (executor : BoundedExecutor (HalTask F))

include h

theorem settles_tick (expired : Bool) : Settles 0 reactor executor (reactor.tick expired, executor) := by
  unfold tick
  split_ifs
  · exact settles_requestFinish h.gated le_rfl rfl _
  · exact ⟨h, id, le_rfl, fun _ => rfl⟩

theorem settles_heartbeatTimeout (generation : ℕ) :
    Settles 0 reactor executor (reactor.heartbeatTimeout generation, executor) := by
  unfold heartbeatTimeout
  split_ifs
  · refine settles_requestFinish ?_ ?_ rfl _
    · exact h.gated
    · exact Nat.le_refl reactor.credit
  · exact ⟨h, id, le_rfl, fun _ => rfl⟩

theorem settles_readDone (request : Option (HalComponentClientMessage F)) :
    Settles 1 reactor executor (reactor.readDone executor 0 request) := by
  unfold readDone
  split_ifs with hrequested
  · refine .of_ended h (fun hgoing => absurd hgoing.1 (by simp [hrequested])) ?_
    dsimp only
    omega
  · cases request with
    | none => exact settles_terminate h.gated (Nat.le_succ _) executor _
    | some request =>
      dsimp only
      split
      next executor' hsubmit =>
        have hrequests := requests_submit hsubmit
        refine ⟨{ h with }, id, ?_, fun _ => ?_⟩
        · exact (congrArg (reactor.credit + ·) hrequests).le
        · exact congrArg (reactor.credit + ·) hrequests
      next =>
        refine settles_requestFinish ?_ ?_ rfl _
        · exact h.gated
        · exact Nat.le_succ reactor.credit

theorem settles_offered (hrequested : reactor.writeFinish.terminationRequested = false) (entry : OutboxEntry F)
    (offered outbox : List (OutboxEntry F))
    (houtbox : outbox.countP OutboxEntry.resumeRead =
      reactor.outbox.countP OutboxEntry.resumeRead + entry.resumeRead.toNat) :
    Settles entry.resumeRead.toNat reactor executor
      (if reactor.writeFinish.writeInFlight then { reactor with offered, outbox }
        else { reactor with offered }.startWrite entry, executor) := by
  split_ifs with hflight
  · have hcredit : ({ reactor with offered, outbox } : Reactor F).credit =
        reactor.credit + entry.resumeRead.toNat := by
      unfold credit
      dsimp only
      omega
    exact .of_kept ⟨h.gated, h.opened, fun _ hidle => absurd (hflight.symm.trans hidle) nofun⟩ id hcredit
  · have hidle : reactor.writeFinish.writeInFlight = false := Bool.eq_false_of_not_eq_true hflight
    have hcredit : ({ reactor with offered }.startWrite entry).credit =
        reactor.credit + entry.resumeRead.toNat := credit_startWrite hidle hrequested
    rw [startWrite_eq (by exact hidle) (by exact hrequested)] at hcredit ⊢
    exact .of_kept ⟨h.gated, h.opened, nofun⟩ id hcredit

theorem settles_offerDelta (message : HalComponentServerMessage F) :
    Settles 0 reactor executor (reactor.offerDelta message, executor) := by
  unfold offerDelta
  split_ifs with hrequested
  · exact ⟨h, id, le_rfl, fun _ => rfl⟩
  · exact settles_offered h executor (Bool.eq_false_of_not_eq_true hrequested) ⟨message, false⟩ _ _
      (countP_pushDelta _ _)

theorem settles_offerResponse (message : HalComponentServerMessage F) :
    Settles 1 reactor executor (reactor.offerResponse message, executor) := by
  unfold offerResponse
  split_ifs with hrequested
  · refine .of_ended h (fun hgoing => absurd hgoing.1 (by simp [hrequested])) ?_
    dsimp only
    omega
  · refine settles_offered h executor (Bool.eq_false_of_not_eq_true hrequested) ⟨message, true⟩ _ _ ?_
    simp [ComponentOutbox.pushResponse, List.countP_append]

/-- The credit of a response that has been written is the read to be resumed, and then the read. -/
theorem settles_writeDone (hopen : reactor.gate = .opened) (hflight : reactor.writeFinish.writeInFlight = true)
    (hone : reactor.credit ≤ 1) (ok : Bool) : Settles 0 reactor executor (reactor.writeDone ok, executor) := by
  have hle := credit_writeDone (h.gated hopen) hflight ok
  -- the response being written and the read to be resumed are not both there
  have hor : (reactor.activeResponse || reactor.resumeReadWhenIdle).toNat =
      reactor.activeResponse.toNat + reactor.resumeReadWhenIdle.toNat := by
    unfold credit at hone
    rw [hflight, Bool.true_and] at hone
    cases hactive : reactor.activeResponse with
    | false => simp
    | true =>
      cases hresume : reactor.resumeReadWhenIdle with
      | false => rfl
      | true =>
        rw [hactive, hresume, Bool.toNat_true] at hone
        omega
  generalize hdone : reactor.writeDone ok = written at hle ⊢
  have hcases := hdone ▸ writeDone_writeDone (h.gated hopen) ok
  cases hcases with
  | finished gate writeFinish _ hrequested hclosed _ =>
    have hended : ¬ (writeFinish.terminationRequested = false) := by simp [hrequested]
    refine .of_ended ⟨?_, ?_, ?_⟩ (fun hgoing => hended hgoing.1) (by dsimp only; omega)
    · exact fun hopen => absurd hopen hclosed
    · exact fun hfalse => absurd hfalse hended
    · exact fun hgoing => absurd hgoing.1 hended
  | next entry rest houtbox hrequested =>
    have hcredit : ({ reactor with
        resumeReadWhenIdle := reactor.activeResponse || reactor.resumeReadWhenIdle
        outbox := rest
        activeResponse := entry.resumeRead
        writeFinish := { reactor.writeFinish with writeInFlight := true }
        written := reactor.written ++ [entry.message] } : Reactor F).credit = reactor.credit := by
      simp only [credit, hflight, houtbox, hor, Bool.true_and, List.countP_cons]
      cases entry.resumeRead <;> simp <;> omega
    exact .of_kept ⟨h.gated, h.opened, fun _ hidle => absurd hidle (by simp)⟩ id hcredit
  | closing status resume _ _ =>
    refine .of_requestFinish ?_ hle rfl
    exact h.gated
  | read houtbox hresume _ =>
    have hcredit : reactor.credit = reactor.reading.toNat + 1 := by
      rw [hresume, Bool.toNat_true] at hor
      simp only [credit, hflight, houtbox, Bool.true_and, List.countP_nil]
      omega
    have hread : ({ reactor with
        resumeReadWhenIdle := false
        reading := true
        writeFinish := { reactor.writeFinish with writeInFlight := false } } : Reactor F).credit = 1 := by
      simp [credit, houtbox]
    exact .of_kept ⟨h.gated, h.opened, fun _ _ => ⟨houtbox, rfl⟩⟩ id (hread.trans (by omega))
  | idle houtbox hresume _ =>
    obtain ⟨hactive, hresume⟩ := Bool.or_eq_false_iff.mp hresume
    have hcredit : ({ reactor with
        writeFinish := { reactor.writeFinish with writeInFlight := false } } : Reactor F).credit =
          reactor.credit := by
      simp [credit, houtbox, hactive]
    exact .of_kept ⟨h.gated, h.opened, fun _ _ => ⟨houtbox, hresume⟩⟩ id hcredit

theorem settles_deliver (hreading : reactor.reading = false) (result : RemoteComponentResult F) :
    Settles 1 reactor executor (reactor.deliver executor result) := by
  obtain ⟨proxyId, generation, hhandle⟩ := setHandle_eq reactor result
  have hsane : ({ reactor with proxyId, generation } : Reactor F).Sane := { h with }
  unfold deliver
  split
  · exact settles_terminate h.gated (Nat.le_succ _) executor _
  · rw [hhandle]
    dsimp only
    split
    next response _ =>
      have hoffer := settles_offerResponse hsane executor response
      split_ifs
      · refine .of_ended { hoffer.sane with idle := fun hgoing => ?_ } (fun hgoing => ?_) hoffer.le
        · cases hgoing.2
        · cases hgoing.2
      · exact { hoffer with }
    next =>
      split_ifs with hclose hrequested
      · refine settles_requestFinish ?_ ?_ rfl _
        · exact h.gated
        · exact Nat.le_succ reactor.credit
      · refine .of_ended hsane (fun hgoing => absurd hgoing.1 (by simp [hrequested])) ?_
        exact Nat.le_succ _
      · have hcredit : ({ reactor with proxyId, generation, reading := true } : Reactor F).credit =
            reactor.credit + 1 := by
          simp only [credit, hreading, Bool.toNat_true, Bool.toNat_false]
          omega
        exact .of_kept { h with } id hcredit

end

theorem Going.finishIfReady_none (h : reactor.Going) :
    ({ reactor with writeFinish := reactor.writeFinish.completeWrite true } : Reactor F).finishIfReady = none ∧
      reactor.writeFinish.completeWrite true = { reactor.writeFinish with writeInFlight := false } := by
  have hrequested := h.1
  unfold DeferredWriteFinish.terminationRequested at hrequested
  rw [Bool.or_eq_false_iff, Option.isSome_eq_false_iff, Option.isNone_iff_eq_none] at hrequested
  obtain ⟨hterminal, hstarted⟩ := hrequested
  unfold finishIfReady DeferredWriteFinish.takeFinishStatus DeferredWriteFinish.completeWrite
  simp [hterminal, hstarted]

theorem Going.writeDone_next (h : reactor.Going) {entry : OutboxEntry F} {rest : List (OutboxEntry F)}
    (houtbox : reactor.outbox = entry :: rest) :
    reactor.writeDone true =
      { reactor with
        resumeReadWhenIdle := reactor.activeResponse || reactor.resumeReadWhenIdle
        outbox := rest
        activeResponse := entry.resumeRead
        writeFinish := { reactor.writeFinish with writeInFlight := true }
        written := reactor.written ++ [entry.message] } := by
  obtain ⟨hnone, hcomplete⟩ := h.finishIfReady_none
  unfold writeDone
  dsimp only
  rw [hnone, hcomplete]
  rw [if_neg (by decide), houtbox]
  dsimp only
  rw [startWrite_eq (by exact rfl) (by exact h.1)]

theorem Going.writeDone_last (h : reactor.Going) (houtbox : reactor.outbox = []) : reactor.writeDone true =
      { reactor with
        resumeReadWhenIdle := false
        reading := reactor.activeResponse || reactor.resumeReadWhenIdle || reactor.reading
        writeFinish := { reactor.writeFinish with writeInFlight := false } } := by
  obtain ⟨hnone, hcomplete⟩ := h.finishIfReady_none
  unfold writeDone
  dsimp only
  rw [hnone, hcomplete]
  rw [if_neg (by decide), houtbox]
  rw [if_neg (by simp [h.2])]
  cases hactive : reactor.activeResponse <;> cases hresume : reactor.resumeReadWhenIdle <;>
    simp

theorem offerResponse_going (h : reactor.Going) (message : HalComponentServerMessage F) :
    (reactor.offerResponse message).Going ∧ (reactor.offerResponse message).reading = reactor.reading ∧
      (reactor.offerResponse message).outbox.length +
          (reactor.offerResponse message).writeFinish.writeInFlight.toNat =
        reactor.outbox.length + reactor.writeFinish.writeInFlight.toNat + 1 := by
  unfold offerResponse
  rw [if_neg (by simp [h.1])]
  dsimp only
  split_ifs with hflight
  · refine ⟨h, rfl, ?_⟩
    simp [ComponentOutbox.pushResponse]
    omega
  · have hidle := Bool.eq_false_of_not_eq_true hflight
    rw [startWrite_eq (by exact hidle) (by exact h.1)]
    refine ⟨h, rfl, ?_⟩
    simp [hidle]

end Reactor

end LinuxcncCtrl
