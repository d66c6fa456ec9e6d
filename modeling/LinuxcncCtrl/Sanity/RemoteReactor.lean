import LinuxcncCtrl.Sanity.BoundedExecutor
import LinuxcncCtrl.Spec.RemoteComponentRpc

/-! What the callbacks of one reactor do to its handle, to whether its detach was requested, and to its
read credit: a read is outstanding, or a response is queued or being written, or the read is to be
resumed. -/

namespace LinuxcncCtrl

variable {F : Type}

namespace Reactor

variable {reactor : Reactor F}

/-- The handle, the requested detach and the lifetime are as before; the gate may have begun to
close, and while it is open no finish has started that had not. -/
structure Steady (reactor reactor' : Reactor F) : Prop where
  proxyId : reactor'.proxyId = reactor.proxyId
  generation : reactor'.generation = reactor.generation
  detachRequested : reactor'.detachRequested = reactor.detachRequested
  destroyed : reactor'.destroyed = reactor.destroyed
  gate : reactor'.gate = reactor.gate ∨ reactor.gate = .opened ∧ reactor'.gate = .finishing
  started : reactor'.gate = .opened →
    reactor'.writeFinish.finishStarted = reactor.writeFinish.finishStarted

theorem Steady.refl (reactor : Reactor F) : reactor.Steady reactor :=
  ⟨rfl, rfl, rfl, rfl, .inl rfl, fun _ => rfl⟩

variable {reactor' : Reactor F}

theorem Steady.opened (h : reactor.Steady reactor')
    (hopen : reactor'.gate = .opened) : reactor.gate = .opened := by
  rcases h.gate with hgate | ⟨hopened, -⟩
  · exact hgate.symm.trans hopen
  · exact hopened

theorem Steady.trans {reactor'' : Reactor F} (h : reactor.Steady reactor')
    (h' : reactor'.Steady reactor'') : reactor.Steady reactor'' := by
  refine ⟨h'.proxyId.trans h.proxyId, h'.generation.trans h.generation,
    h'.detachRequested.trans h.detachRequested, h'.destroyed.trans h.destroyed, ?_, fun hopen =>
    (h'.started hopen).trans (h.started (h'.opened hopen))⟩
  rcases h.gate with hgate | ⟨hopen, hfinishing⟩
  · rw [← hgate]
    exact h'.gate
  · rcases h'.gate with hgate' | ⟨hopen', -⟩
    · exact .inr ⟨hopen, hgate'.trans hfinishing⟩
    · cases hfinishing.symm.trans hopen'

/-- Reads outstanding, to be resumed or waiting for a response to be written. -/
def credit (reactor : Reactor F) : ℕ :=
  reactor.reading.toNat + reactor.outbox.countP OutboxEntry.resumeRead +
    (reactor.writeFinish.writeInFlight && reactor.activeResponse).toNat +
    reactor.resumeReadWhenIdle.toNat

theorem finishIfReady_some {finished : Reactor F} (h : reactor.finishIfReady = some finished) :
    reactor.writeFinish.writeInFlight = false ∧ reactor.writeFinish.terminalStatus.isSome = true ∧
      finished =
        { reactor with
          writeFinish := { reactor.writeFinish with finishStarted := true }
          gate := if reactor.gate = .opened then .finishing else reactor.gate } := by
  obtain ⟨⟨status, taken⟩, htaken, rfl⟩ := Option.map_eq_some_iff.mp h
  obtain ⟨hflight, hstatus, rfl⟩ := DeferredWriteFinish.takeFinishStatus_spec htaken
  exact ⟨hflight, by rw [hstatus]; rfl, rfl⟩

section

variable (reactor : Reactor F) (status : GrpcStatus)

theorem requestFinish_eq :
    ∃ (gate : GateState) (writeFinish : DeferredWriteFinish), reactor.requestFinish status =
        { reactor with outbox := [], resumeReadWhenIdle := false, writeFinish, gate } ∧
      writeFinish.writeInFlight = reactor.writeFinish.writeInFlight ∧
      writeFinish.terminationRequested = true ∧
      (gate = reactor.gate ∨ reactor.gate = .opened ∧ gate = .finishing) ∧
      (gate = .opened → writeFinish.finishStarted = reactor.writeFinish.finishStarted) := by
  unfold requestFinish
  dsimp only
  generalize hrequested : ({ reactor with
    outbox := []
    resumeReadWhenIdle := false
    writeFinish := reactor.writeFinish.requestFinish status } : Reactor F) = requested
  cases hfinish : requested.finishIfReady with
  | none =>
    subst hrequested
    exact ⟨_, _, rfl, by simp, by simp, .inl rfl, fun _ => by simp⟩
  | some finished =>
    obtain ⟨-, hterminal, rfl⟩ := finishIfReady_some hfinish
    subst hrequested
    refine ⟨_, _, rfl, by simp, ?_, ?_, ?_⟩
    · simp [DeferredWriteFinish.terminationRequested]
    · split_ifs with hopen
      · exact .inr ⟨hopen, rfl⟩
      · exact .inl rfl
    · split_ifs with hopen
      · exact nofun
      · exact fun hgate => absurd hgate hopen

theorem steady_requestFinish : reactor.Steady (reactor.requestFinish status) := by
  obtain ⟨gate, writeFinish, heq, -, -, hgate, hstarted⟩ := requestFinish_eq reactor status
  rw [heq]
  exact ⟨rfl, rfl, rfl, rfl, hgate, hstarted⟩

theorem credit_requestFinish : (reactor.requestFinish status).credit ≤ reactor.credit := by
  obtain ⟨gate, writeFinish, heq, hflight, -, -, -⟩ := requestFinish_eq reactor status
  rw [heq]
  unfold credit
  simp only [hflight, List.countP_nil, Bool.toNat_false]
  omega

end

variable {entry : OutboxEntry F}

section

variable (hflight : reactor.writeFinish.writeInFlight = false)
  (hrequested : reactor.writeFinish.terminationRequested = false)

include hflight hrequested

theorem startWrite_eq :
    reactor.startWrite entry =
      { reactor with
        activeResponse := entry.resumeRead
        writeFinish := { reactor.writeFinish with writeInFlight := true }
        written := reactor.written ++ [entry.message] } := by
  have hstart : reactor.writeFinish.tryStartWrite =
      some { reactor.writeFinish with writeInFlight := true } :=
    DeferredWriteFinish.tryStartWrite_eq_some.mpr ⟨hflight, hrequested, rfl⟩
  unfold startWrite
  dsimp only
  rw [hstart]

theorem credit_startWrite : (reactor.startWrite entry).credit = reactor.credit + entry.resumeRead.toNat := by
  rw [startWrite_eq hflight hrequested]
  unfold credit
  simp only [hflight, Bool.true_and, Bool.false_and, Bool.toNat_false]
  omega

end

theorem steady_startWrite (reactor : Reactor F) (entry : OutboxEntry F) :
    reactor.Steady (reactor.startWrite entry) := by
  unfold startWrite
  dsimp only
  split
  next => exact ⟨rfl, rfl, rfl, rfl, .inl rfl, fun _ => rfl⟩
  next writeFinish hstart =>
    obtain ⟨-, -, rfl⟩ := DeferredWriteFinish.tryStartWrite_eq_some.mp hstart
    exact ⟨rfl, rfl, rfl, rfl, .inl rfl, fun _ => rfl⟩

theorem countP_pushDelta (outbox : List (OutboxEntry F)) (message : HalComponentServerMessage F) :
    (ComponentOutbox.pushDelta outbox message).countP OutboxEntry.resumeRead =
      outbox.countP OutboxEntry.resumeRead := by
  unfold ComponentOutbox.pushDelta
  split
  next generation sequence values generation' sequence' queued resumeRead hlast =>
    obtain ⟨front, rfl⟩ := List.getLast?_eq_some_iff.mp hlast
    simp [List.countP_append]
  next => simp [List.countP_append]

section

variable (reactor : Reactor F) (message : HalComponentServerMessage F)

theorem steady_offerDelta : reactor.Steady (reactor.offerDelta message) := by
  unfold offerDelta
  dsimp only
  split_ifs
  · exact .refl reactor
  · exact ⟨rfl, rfl, rfl, rfl, .inl rfl, fun _ => rfl⟩
  · refine Steady.trans ?_ (steady_startWrite _ _)
    exact ⟨rfl, rfl, rfl, rfl, .inl rfl, fun _ => rfl⟩

theorem credit_offerDelta : (reactor.offerDelta message).credit = reactor.credit := by
  unfold offerDelta
  dsimp only
  split_ifs with hrequested hflight
  · rfl
  · unfold credit
    rw [countP_pushDelta]
  · refine Eq.trans (credit_startWrite ?_ ?_) rfl
    · exact Bool.eq_false_of_not_eq_true hflight
    · exact Bool.eq_false_of_not_eq_true hrequested

theorem steady_offerResponse : reactor.Steady (reactor.offerResponse message) := by
  unfold offerResponse
  dsimp only
  split_ifs
  · exact .refl reactor
  · exact ⟨rfl, rfl, rfl, rfl, .inl rfl, fun _ => rfl⟩
  · refine Steady.trans ?_ (steady_startWrite _ _)
    exact ⟨rfl, rfl, rfl, rfl, .inl rfl, fun _ => rfl⟩

theorem credit_offerResponse : (reactor.offerResponse message).credit ≤ reactor.credit + 1 := by
  unfold offerResponse
  dsimp only
  split_ifs with hrequested hflight
  · omega
  · unfold credit ComponentOutbox.pushResponse
    simp only [List.countP_append, List.countP_singleton, if_true]
    omega
  · refine Eq.le (credit_startWrite ?_ ?_)
    · exact Bool.eq_false_of_not_eq_true hflight
    · exact Bool.eq_false_of_not_eq_true hrequested

end

inductive WriteDone (reactor : Reactor F) : Reactor F → Prop
  | finished (gate : GateState) (writeFinish : DeferredWriteFinish) :
      writeFinish.writeInFlight = false → writeFinish.terminationRequested = true →
      gate ≠ .opened → (gate = reactor.gate ∨ reactor.gate = .opened ∧ gate = .finishing) →
      WriteDone reactor { reactor with writeFinish, gate }
  | next (entry : OutboxEntry F) (rest : List (OutboxEntry F)) :
      reactor.outbox = entry :: rest → reactor.writeFinish.terminationRequested = false →
      WriteDone reactor
        { reactor with
          resumeReadWhenIdle := reactor.activeResponse || reactor.resumeReadWhenIdle
          outbox := rest
          activeResponse := entry.resumeRead
          writeFinish := { reactor.writeFinish with writeInFlight := true }
          written := reactor.written ++ [entry.message] }
  | closing (status : GrpcStatus) (resume : Bool) :
      reactor.finishAfterResponses = true → reactor.outbox = [] →
      WriteDone reactor
        ({ reactor with
          resumeReadWhenIdle := resume
          writeFinish :=
            { reactor.writeFinish with writeInFlight := false } }.requestFinish status)
  | read :
      reactor.outbox = [] → (reactor.activeResponse || reactor.resumeReadWhenIdle) = true →
      reactor.writeFinish.terminationRequested = false →
      WriteDone reactor
        { reactor with
          resumeReadWhenIdle := false
          reading := true
          writeFinish := { reactor.writeFinish with writeInFlight := false } }
  | idle :
      reactor.outbox = [] → (reactor.activeResponse || reactor.resumeReadWhenIdle) = false →
      reactor.writeFinish.terminationRequested = false →
      WriteDone reactor
        { reactor with writeFinish := { reactor.writeFinish with writeInFlight := false } }

theorem finishIfReady_none (h : reactor.finishIfReady = none)
    (hflight : reactor.writeFinish.writeInFlight = false)
    (hstarted : reactor.writeFinish.finishStarted = false) : reactor.writeFinish.terminalStatus = none := by
  have hnone := Option.map_eq_none_iff.mp h
  unfold DeferredWriteFinish.takeFinishStatus at hnone
  rw [hflight, hstarted] at hnone
  simpa using hnone

section

variable (hstarted : reactor.writeFinish.finishStarted = false)

include hstarted

theorem writeDone_writeDone (ok : Bool) : reactor.WriteDone (reactor.writeDone ok) := by
  unfold writeDone
  dsimp only
  split
  next finished hfinished =>
    obtain ⟨-, hterminal, rfl⟩ := finishIfReady_some hfinished
    refine .finished _ _ rfl ?_ ?_ ?_
    · simp [DeferredWriteFinish.terminationRequested]
    · split_ifs with hopen
      · exact nofun
      · exact hopen
    · split_ifs with hopen
      · exact .inr ⟨hopen, rfl⟩
      · exact .inl rfl
  next hnone =>
    have hterminal := finishIfReady_none hnone rfl hstarted
    cases ok with
    | false =>
      cases hstatus : reactor.writeFinish.terminalStatus <;>
        simp [DeferredWriteFinish.completeWrite, hstatus] at hterminal
    | true =>
      have hcomplete : reactor.writeFinish.completeWrite true =
          { reactor.writeFinish with writeInFlight := false } := by
        simp [DeferredWriteFinish.completeWrite]
      rw [hcomplete] at hterminal ⊢
      have hrequested : reactor.writeFinish.terminationRequested = false := by
        unfold DeferredWriteFinish.terminationRequested
        rw [hterminal, hstarted]
        rfl
      rw [if_neg (by decide)]
      cases houtbox : reactor.outbox with
      | cons entry rest =>
        dsimp only
        rw [startWrite_eq]
        · exact .next entry rest houtbox hrequested
        · rfl
        · exact hrequested
      | nil =>
        split_ifs with hclosing hresume
        · have hclosed := WriteDone.closing ⟨.ok, ""⟩
            (reactor.activeResponse || reactor.resumeReadWhenIdle) hclosing houtbox
          rw [houtbox] at hclosed
          exact hclosed
        · have hread := WriteDone.read houtbox hresume hrequested
          rw [houtbox] at hread
          exact hread
        · have hidle := WriteDone.idle houtbox (Bool.eq_false_of_not_eq_true hresume) hrequested
          obtain ⟨hactive, hresume⟩ :=
            Bool.or_eq_false_iff.mp (Bool.eq_false_of_not_eq_true hresume)
          rw [houtbox, hactive, hresume] at hidle
          rw [hactive, hresume]
          exact hidle

theorem steady_writeDone (ok : Bool) : reactor.Steady (reactor.writeDone ok) := by
  generalize hdone : reactor.writeDone ok = written
  have hcases := hdone ▸ writeDone_writeDone hstarted ok
  cases hcases with
  | finished gate writeFinish _ _ hclosed hgate =>
    exact ⟨rfl, rfl, rfl, rfl, hgate, fun hopen => absurd hopen hclosed⟩
  | next entry rest _ _ => exact ⟨rfl, rfl, rfl, rfl, .inl rfl, fun _ => rfl⟩
  | closing status resume _ _ =>
    refine Steady.trans ?_ (steady_requestFinish _ _)
    exact ⟨rfl, rfl, rfl, rfl, .inl rfl, fun _ => rfl⟩
  | read _ _ _ => exact ⟨rfl, rfl, rfl, rfl, .inl rfl, fun _ => rfl⟩
  | idle _ _ _ => exact ⟨rfl, rfl, rfl, rfl, .inl rfl, fun _ => rfl⟩

/-- The credit of a written response becomes the read to be resumed, and then the read. -/
theorem credit_writeDone (hflight : reactor.writeFinish.writeInFlight = true) (ok : Bool) :
    (reactor.writeDone ok).credit ≤ reactor.credit := by
  have hor : (reactor.activeResponse || reactor.resumeReadWhenIdle).toNat ≤
      reactor.activeResponse.toNat + reactor.resumeReadWhenIdle.toNat := by
    cases reactor.activeResponse <;> cases reactor.resumeReadWhenIdle <;> decide
  generalize hdone : reactor.writeDone ok = written
  have hcases := hdone ▸ writeDone_writeDone hstarted ok
  cases hcases with
  | finished gate writeFinish hidle _ _ _ =>
    simp only [credit, hidle, hflight, Bool.false_and, Bool.true_and, Bool.toNat_false]
    omega
  | next entry rest houtbox _ =>
    simp only [credit, hflight, houtbox, Bool.true_and, List.countP_cons]
    cases entry.resumeRead <;> simp <;> omega
  | closing status resume _ houtbox =>
    obtain ⟨gate, writeFinish, heq, hidle, -, -, -⟩ := requestFinish_eq ({ reactor with
      resumeReadWhenIdle := resume
      writeFinish := { reactor.writeFinish with writeInFlight := false } } : Reactor F) status
    rw [heq]
    simp only [credit, hidle, hflight, houtbox, Bool.false_and, Bool.true_and, Bool.toNat_false,
      List.countP_nil]
    omega
  | read houtbox hresume _ =>
    rw [hresume] at hor
    simp only [credit, hflight, houtbox, Bool.false_and, Bool.true_and, Bool.toNat_false, List.countP_nil]
    omega
  | idle houtbox _ _ =>
    simp only [credit, hflight, houtbox, Bool.false_and, Bool.true_and, Bool.toNat_false, List.countP_nil]
    omega

end

variable {executor : BoundedExecutor (HalTask F)} {stream : ℕ}

/-- What a callback can do: keep to itself, submit the detach of its handle if it is one that ends the
stream, or submit a request with its handle for the read that completed. -/
inductive Acts (stream : ℕ) (ends : Prop) (reactor : Reactor F) (executor : BoundedExecutor (HalTask F)) :
    Reactor F × BoundedExecutor (HalTask F) → Prop
  | steady (reactor' : Reactor F) : reactor.Steady reactor' → reactor'.credit ≤ reactor.credit →
      Acts stream ends reactor executor (reactor', executor)
  | detach (reactor' : Reactor F) : ends → reactor.detachRequested = false → reactor.proxyId ≠ [] →
      { reactor with detachRequested := true }.Steady reactor' → reactor'.credit ≤ reactor.credit →
      Acts stream ends reactor executor
        (reactor', executor.submitCleanup (.detach reactor.proxyId reactor.generation))
  | consume (reactor' : Reactor F) (executor' : BoundedExecutor (HalTask F))
      (request : HalComponentClientMessage F) : reactor.Steady reactor' →
      reactor'.credit + 1 ≤ reactor.credit →
      executor.submit (.consume stream reactor.proxyId reactor.generation request) = some executor' →
      Acts stream ends reactor executor (reactor', executor')

variable {ends : Prop}

theorem Acts.of_steady {reactor₀ : Reactor F} {updated : Reactor F × BoundedExecutor (HalTask F)}
    (hsteady : reactor.Steady reactor₀) (hcredit : reactor₀.credit ≤ reactor.credit)
    (h : reactor₀.Acts stream ends executor updated) : reactor.Acts stream ends executor updated := by
  cases h with
  | steady reactor' hsteady' hcredit' =>
    exact .steady reactor' (hsteady.trans hsteady') (hcredit'.trans hcredit)
  | detach reactor' hends hrequested hproxy hsteady' hcredit' =>
    rw [hsteady.proxyId, hsteady.generation]
    refine .detach reactor' hends (hsteady.detachRequested.symm.trans hrequested)
      (hsteady.proxyId ▸ hproxy) (Steady.trans ?_ hsteady') (hcredit'.trans hcredit)
    exact { hsteady with detachRequested := rfl }
  | consume reactor' executor' request hsteady' hcredit' hsubmit =>
    rw [hsteady.proxyId, hsteady.generation] at hsubmit
    exact .consume reactor' executor' request (hsteady.trans hsteady') (hcredit'.trans hcredit) hsubmit

theorem acts_terminate (hends : ends) (reactor : Reactor F) (executor : BoundedExecutor (HalTask F))
    (status : GrpcStatus) : reactor.Acts stream ends executor (reactor.terminate executor status) := by
  unfold terminate detachTransport
  split_ifs with hskip
  · exact .steady _ (steady_requestFinish _ _) (credit_requestFinish _ _)
  · obtain ⟨hrequested, hproxy⟩ := not_or.mp hskip
    refine .detach _ hends (Bool.eq_false_of_not_eq_true hrequested) hproxy (steady_requestFinish _ _) ?_
    exact credit_requestFinish { reactor with detachRequested := true } status

theorem acts_writeDone (hstarted : reactor.writeFinish.finishStarted = false)
    (hflight : reactor.writeFinish.writeInFlight = true) (ok : Bool) :
    reactor.Acts stream ends executor (reactor.writeDone ok, executor) :=
  .steady _ (steady_writeDone hstarted ok) (credit_writeDone hstarted hflight ok)

theorem acts_tick (reactor : Reactor F) (expired : Bool) :
    reactor.Acts stream ends executor (reactor.tick expired, executor) := by
  unfold tick
  split_ifs
  · exact .steady _ (steady_requestFinish _ _) (credit_requestFinish _ _)
  · exact .steady _ (.refl reactor) (Nat.le_refl _)

theorem acts_readDone (hreading : reactor.reading = true) {request : Option (HalComponentClientMessage F)}
    (hends : request = none → ends) :
    reactor.Acts stream ends executor
      ({ reactor with reading := false }.readDone executor stream request) := by
  have hcredit : ({ reactor with reading := false } : Reactor F).credit + 1 = reactor.credit := by
    simp only [credit, hreading, Bool.toNat_false, Bool.toNat_true]
    omega
  have hsteady : reactor.Steady { reactor with reading := false } :=
    ⟨rfl, rfl, rfl, rfl, .inl rfl, fun _ => rfl⟩
  have hle : ({ reactor with reading := false } : Reactor F).credit ≤ reactor.credit := by omega
  unfold readDone
  split_ifs
  · exact .steady _ hsteady hle
  · cases request with
    | none => exact .of_steady hsteady hle (acts_terminate (hends rfl) _ _ _)
    | some request =>
      dsimp only
      split
      next executor' hsubmit =>
        refine .consume _ executor' request ⟨rfl, rfl, rfl, rfl, .inl rfl, fun _ => rfl⟩ ?_ hsubmit
        exact hcredit.le
      next =>
        refine .steady _ (Steady.trans ?_ (steady_requestFinish _ _)) ((credit_requestFinish _ _).trans hle)
        exact ⟨rfl, rfl, rfl, rfl, .inl rfl, fun _ => rfl⟩

/-- What the delivery of a result can do. It adds at most one credit. -/
inductive Delivers (stream : ℕ) (reactor : Reactor F) (executor : BoundedExecutor (HalTask F))
    (result : RemoteComponentResult F) : Reactor F × BoundedExecutor (HalTask F) → Prop
  | failed (updated : Reactor F × BoundedExecutor (HalTask F)) : result.status.code ≠ .ok →
      reactor.Acts stream True executor updated → Delivers stream reactor executor result updated
  | settled (reactor' : Reactor F) : result.status.code = .ok →
      (reactor.setHandle result).Steady reactor' → reactor'.credit ≤ reactor.credit + 1 →
      Delivers stream reactor executor result (reactor', executor)
  | closed (reactor' : Reactor F) : result.status.code = .ok → result.close = true →
      { reactor.setHandle result with detachRequested := true }.Steady reactor' →
      reactor'.credit ≤ reactor.credit + 1 →
      Delivers stream reactor executor result (reactor', executor)

theorem setHandle_eq (reactor : Reactor F) (result : RemoteComponentResult F) :
    ∃ proxyId generation, reactor.setHandle result = { reactor with proxyId, generation } := by
  unfold setHandle
  split_ifs
  · exact ⟨_, _, rfl⟩
  · exact ⟨_, _, rfl⟩

theorem delivers_deliver (stream : ℕ) (reactor : Reactor F)
    (executor : BoundedExecutor (HalTask F)) (result : RemoteComponentResult F) :
    reactor.Delivers stream executor result (reactor.deliver executor result) := by
  have hcredit : (reactor.setHandle result).credit = reactor.credit := by
    obtain ⟨proxyId, generation, hhandle⟩ := setHandle_eq reactor result
    rw [hhandle]
    rfl
  unfold deliver
  by_cases hstatus : result.status.code = .ok
  · rw [if_neg (not_not.mpr hstatus)]
    dsimp only
    split
    next response _ =>
      have hoffer := credit_offerResponse (reactor.setHandle result) response
      rw [hcredit] at hoffer
      split_ifs with hclose
      · refine .closed _ hstatus hclose ?_ hoffer
        have hsteady := steady_offerResponse (reactor.setHandle result) response
        exact { hsteady with detachRequested := rfl }
      · exact .settled _ hstatus (steady_offerResponse _ _) hoffer
    next =>
      split_ifs with hclose
      · refine .settled _ hstatus (steady_requestFinish _ _) ?_
        exact ((credit_requestFinish _ _).trans hcredit.le).trans (Nat.le_succ _)
      · exact .settled _ hstatus (.refl _) (hcredit.le.trans (Nat.le_succ _))
      · refine .settled _ hstatus ⟨rfl, rfl, rfl, rfl, .inl rfl, fun _ => rfl⟩ ?_
        rw [← hcredit]
        unfold credit
        simp only [Bool.toNat_true]
        omega
  · rw [if_pos hstatus]
    exact .failed _ hstatus (acts_terminate trivial _ _ _)

theorem heartbeatTimeout_cases (reactor : Reactor F) (generation : ℕ) :
    (reactor.generation ≠ generation ∧ reactor.heartbeatTimeout generation = reactor) ∨
      reactor.generation = generation ∧
        { reactor with detachRequested := true }.Steady (reactor.heartbeatTimeout generation) ∧
        (reactor.heartbeatTimeout generation).credit ≤ reactor.credit := by
  unfold heartbeatTimeout
  split_ifs with hgeneration
  · refine .inr ⟨hgeneration, steady_requestFinish _ _, ?_⟩
    exact credit_requestFinish { reactor with detachRequested := true } _
  · exact .inl ⟨hgeneration, rfl⟩

end Reactor

end LinuxcncCtrl
