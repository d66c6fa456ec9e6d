import LinuxcncCtrl.Sanity.RemoteAttachment
import LinuxcncCtrl.Sanity.RemoteOutbox

/-! What one step of the streams and the worker can do, said once. A reactor acts on its own state
and adds at most one task to the queue; the worker takes a task and works on the registry, or makes
the next call of its task. -/

namespace LinuxcncCtrl

variable {F : Type}

/-- The stream whose transport the action detaches. -/
def RpcAction.detaches (system : RpcSystem F) : RpcAction F → Option ℕ
  | .readDone stream none | .cancel stream | .shutdown stream | .done stream => some stream
  | .call =>
    match system.worker with
    | .deliver stream result :: _ => if result.status.code ≠ .ok then some stream else none
    | _ => none
  | _ => none

namespace Reactor

/-- A gate that is open has started no finish, and only a closed one is destroyed. -/
def Gated (reactor : Reactor F) : Prop :=
  (reactor.gate = .opened → reactor.writeFinish.finishStarted = false) ∧
    (reactor.destroyed = true → reactor.gate = .done)

variable {reactor : Reactor F} {stream : ℕ} {executor : BoundedExecutor (HalTask F)}
  {updated : Reactor F × BoundedExecutor (HalTask F)}

theorem Steady.gated {reactor' : Reactor F} (h : reactor.Steady reactor')
    (hgated : reactor.Gated) : reactor'.Gated := by
  refine ⟨fun hopen => (h.started hopen).trans (hgated.1 (h.opened hopen)), fun hdestroyed => ?_⟩
  have hdone := hgated.2 (h.destroyed.symm.trans hdestroyed)
  rcases h.gate with hgate | ⟨hopen, -⟩
  · exact hgate.trans hdone
  · cases hdone.symm.trans hopen

theorem Acts.gated {ends : Prop} (h : reactor.Acts stream ends executor updated)
    (hgated : reactor.Gated) : updated.1.Gated := by
  cases h with
  | steady reactor' hsteady _ => exact hsteady.gated hgated
  | detach reactor' _ _ _ hsteady _ => exact hsteady.gated hgated
  | consume reactor' executor' request hsteady _ _ => exact hsteady.gated hgated

theorem Gated.setHandle (h : reactor.Gated) (result : RemoteComponentResult F) :
    (reactor.setHandle result).Gated := by
  unfold Reactor.setHandle
  split_ifs <;> exact h

theorem Delivers.gated {result : RemoteComponentResult F}
    (h : reactor.Delivers stream executor result updated) (hgated : reactor.Gated) :
    updated.1.Gated := by
  cases h with
  | failed _ _ hacts => exact hacts.gated hgated
  | settled reactor' _ hsteady _ => exact hsteady.gated (hgated.setHandle result)
  | closed reactor' _ _ hsteady _ => exact hsteady.gated (hgated.setHandle result)

theorem Gated.heartbeatTimeout (h : reactor.Gated) (generation : ℕ) :
    (reactor.heartbeatTimeout generation).Gated := by
  rcases heartbeatTimeout_cases reactor generation with ⟨-, heq⟩ | ⟨-, hsteady, -⟩
  · rw [heq]
    exact h
  · exact hsteady.gated h

structure Fresh (reactor : Reactor F) : Prop where
  gated : reactor.Gated
  credit : reactor.credit ≤ 1
  proxyId : reactor.proxyId = []
  generation : reactor.generation = 0
  detachRequested : reactor.detachRequested = false
  destroyed : reactor.destroyed = false
  ordered : reactor.flow.Ordered

theorem fresh_construct (registered admitted : Bool) :
    (construct registered admitted : Reactor F).Fresh := by
  cases registered with
  | false =>
    exact ⟨⟨nofun, nofun⟩, Nat.zero_le 1, rfl, rfl, rfl, rfl, MessageFlow.ordered_unsent _ _⟩
  | true =>
    cases admitted with
    | false =>
      exact ⟨⟨nofun, nofun⟩, Nat.zero_le 1, rfl, rfl, rfl, rfl, MessageFlow.ordered_unsent _ _⟩
    | true =>
      exact ⟨⟨fun _ => rfl, nofun⟩, Nat.le_refl 1, rfl, rfl, rfl, rfl, MessageFlow.ordered_unsent _ _⟩

end Reactor

namespace RpcSystem

variable {config : RegistryConfig} {system system' : RpcSystem F}

inductive Moved [BEq F] (config : RegistryConfig) (system : RpcSystem F) :
    RpcAction F → RpcSystem F → Prop
  | opened (action : RpcAction F) (reactor : Reactor F) : reactor.Fresh →
      Moved config system action { system with reactors := system.reactors ++ [reactor] }
  | acted (action : RpcAction F) (stream : ℕ) (reactor : Reactor F)
      (updated : Reactor F × BoundedExecutor (HalTask F)) : system.reactors[stream]? = some reactor →
      reactor.Acts stream (stream ∈ action.detaches system) system.executor updated →
      reactor.flow.Keeps updated.1.flow →
      Moved config system action (system.setReactor stream updated)
  | gateClosed (action : RpcAction F) (stream : ℕ) (reactor : Reactor F) :
      system.reactors[stream]? = some reactor → reactor.gate = .finishing →
      Moved config system action
        (system.setReactor stream ({ reactor with gate := .done }, system.executor))
  | ended (action : RpcAction F) (stream : ℕ) (reactor : Reactor F) :
      system.reactors[stream]? = some reactor →
      reactor.gate = .done → (reactor.detachRequested = true ∨ reactor.proxyId = []) →
      Moved config system action
        (system.setReactor stream ({ reactor with destroyed := true }, system.executor))
  | endedDetach (action : RpcAction F) (stream : ℕ) (reactor : Reactor F) :
      stream ∈ action.detaches system → system.reactors[stream]? = some reactor →
      reactor.gate = .done → reactor.detachRequested = false → reactor.proxyId ≠ [] →
      reactor.destroyed = false →
      Moved config system action (system.setReactor stream
        ({ reactor with destroyed := true, detachRequested := true },
          system.executor.submitCleanup (.detach reactor.proxyId reactor.generation)))
  | submitted (action : RpcAction F) (task : HalTask F)
      (executor' : BoundedExecutor (HalTask F)) : (task = .other ∨ ∃ now, task = .sample now) →
      system.executor.submit task = some executor' →
      Moved config system action { system with executor := executor' }
  | took (index : ℕ) (inputs : RegistryInputs F) (task : HalTask F)
      (executor' : BoundedExecutor (HalTask F)) : system.worker = [] → inputs.proxyId ≠ [] →
      inputs.proxyId ∉ system.registry.proxies → system.executor.take index = some (task, executor') →
      Moved config system (.take index inputs)
        ({ system with executor := executor' }.runTask config inputs task)
  | called (call : WorkerCall F) (rest : List (WorkerCall F)) :
      system.worker = call :: rest →
      Moved config system .call ({ system with worker := rest }.runCall call)

variable {stream : ℕ}
  {function : Reactor F → BoundedExecutor (HalTask F) → Reactor F × BoundedExecutor (HalTask F)}

theorem invoke_some (h : system.invoke stream function = some system') :
    ∃ reactor, system.reactors[stream]? = some reactor ∧ reactor.gate = .opened ∧
      system' = system.setReactor stream (function reactor system.executor) := by
  unfold invoke at h
  split at h
  next => cases h
  next reactor hreactor =>
    obtain ⟨hopen, hsome⟩ := Option.ite_none_right_eq_some.mp h
    exact ⟨reactor, hreactor, hopen, (Option.some.inj hsome).symm⟩

/-- What a call of the worker does: a reactor that is still open takes it, or it is dropped. -/
inductive Called (system : RpcSystem F) : WorkerCall F → RpcSystem F → Prop
  | delivered {stream : ℕ} {reactor : Reactor F} (result : RemoteComponentResult F)
      (hreactor : system.reactors[stream]? = some reactor) (hopen : reactor.gate = .opened) :
      Called system (.deliver stream result)
        (system.setReactor stream (reactor.deliver system.executor result))
  | undelivered {stream : ℕ} (result : RemoteComponentResult F)
      (hclosed : ∀ reactor, system.reactors[stream]? = some reactor → reactor.gate ≠ .opened) :
      Called system (.deliver stream result) (if result.proxyId = [] then system
        else { system with registry := system.registry.detach result.proxyId result.generation })
  | offered {stream : ℕ} {reactor : Reactor F} (message : HalComponentServerMessage F)
      (hreactor : system.reactors[stream]? = some reactor) (hopen : reactor.gate = .opened) :
      Called system (.callback (.offerDelta stream message))
        (system.setReactor stream (reactor.offerDelta message, system.executor))
  | timedOut {stream : ℕ} {reactor : Reactor F} (generation : ℕ)
      (hreactor : system.reactors[stream]? = some reactor) :
      Called system (.callback (.heartbeatTimeout stream generation))
        (system.setReactor stream (reactor.heartbeatTimeout generation, system.executor))
  | dropped (callback : CallbackCall F ℕ) (hclosed : ∀ stream message reactor,
      callback = .offerDelta stream message → system.reactors[stream]? = some reactor →
        reactor.gate ≠ .opened) : Called system (.callback callback) system

theorem invoke_none (h : system.invoke stream function = none) (reactor : Reactor F)
    (hreactor : system.reactors[stream]? = some reactor) : reactor.gate ≠ .opened := by
  intro hopen
  unfold invoke at h
  rw [hreactor] at h
  dsimp only at h
  rw [if_pos hopen] at h
  cases h

theorem runCall_called (system : RpcSystem F) (call : WorkerCall F) :
    system.Called call (system.runCall call) := by
  unfold runCall
  split
  next stream result =>
    split
    next hinvoke =>
      obtain ⟨reactor, hreactor, hopen, rfl⟩ := invoke_some hinvoke
      exact .delivered result hreactor hopen
    next hinvoke => exact .undelivered result (invoke_none hinvoke)
  next stream message =>
    cases hinvoke : system.invoke stream fun reactor executor => (reactor.offerDelta message, executor) with
    | none =>
      refine .dropped _ fun _ _ reactor heq hreactor => ?_
      cases heq
      exact invoke_none hinvoke reactor hreactor
    | some offered =>
      obtain ⟨reactor, hreactor, hopen, rfl⟩ := invoke_some hinvoke
      exact .offered message hreactor hopen
  next stream generation =>
    cases hinvoke : system.invoke stream fun reactor executor =>
        (reactor.heartbeatTimeout generation, executor) with
    | none =>
      refine .dropped _ fun _ _ _ heq => ?_
      cases heq
    | some finished =>
      obtain ⟨reactor, hreactor, -, rfl⟩ := invoke_some hinvoke
      exact .timedOut generation hreactor

variable [BEq F] {action : RpcAction F} {reactor : Reactor F}

theorem moved_invoke (hacts : ∀ reactor, system.reactors[stream]? = some reactor → reactor.gate = .opened →
      reactor.Acts stream (stream ∈ action.detaches system) system.executor
          (function reactor system.executor) ∧
        reactor.flow.Keeps (function reactor system.executor).1.flow)
    (h : system.invoke stream function = some system') : Moved config system action system' := by
  obtain ⟨reactor, hreactor, hopen, rfl⟩ := invoke_some h
  obtain ⟨hacts, hkeeps⟩ := hacts reactor hreactor hopen
  exact .acted _ stream reactor _ hreactor hacts hkeeps

theorem moved_readDone {request : Option (HalComponentClientMessage F)}
    (hends : request = none → stream ∈ action.detaches system)
    (hreactor : system.reactors[stream]? = some reactor) (hreading : reactor.reading = true) :
    Moved config system action
      (((system.setReactor stream ({ reactor with reading := false }, system.executor)).invoke stream
        fun reactor executor => reactor.readDone executor stream request).getD
          (system.setReactor stream ({ reactor with reading := false }, system.executor))) := by
  have hlength : stream < system.reactors.length := (List.getElem?_eq_some_iff.mp hreactor).1
  have hread : (system.setReactor stream
      ({ reactor with reading := false }, system.executor)).reactors[stream]? =
        some { reactor with reading := false } := by
    unfold setReactor
    rw [List.getElem?_set_self hlength]
  unfold invoke
  rw [hread]
  dsimp only
  split_ifs
  · have hset : ∀ updated, (system.setReactor stream
        ({ reactor with reading := false }, system.executor)).setReactor stream updated =
          system.setReactor stream updated := by
      intro updated
      unfold setReactor
      rw [List.set_set]
    rw [hset]
    exact .acted _ stream reactor _ hreactor (Reactor.acts_readDone hreading hends)
      (Reactor.readDone_keeps _ _ _ _)
  · refine .acted _ stream reactor _ hreactor (.steady _ ?_ ?_) reactor.flow.keeps_refl
    · exact ⟨rfl, rfl, rfl, rfl, .inl rfl, fun _ => rfl⟩
    · unfold Reactor.credit
      simp only [hreading, Bool.toNat_false]
      omega

theorem moved_done (hends : stream ∈ action.detaches system)
    (hreactor : system.reactors[stream]? = some reactor) (hgate : reactor.gate = .done)
    (hdestroyed : reactor.destroyed = false) :
    Moved config system action (system.setReactor stream
      ({ (reactor.detachTransport system.executor).1 with destroyed := true },
        (reactor.detachTransport system.executor).2)) := by
  unfold Reactor.detachTransport
  split_ifs with hskip
  · exact .ended _ stream reactor hreactor hgate hskip
  · obtain ⟨hrequested, hproxy⟩ := not_or.mp hskip
    exact .endedDetach _ stream reactor hends hreactor hgate (Bool.eq_false_of_not_eq_true hrequested) hproxy
      hdestroyed

theorem step_moved (hgated : ∀ (stream : ℕ) (reactor : Reactor F), system.reactors[stream]? = some reactor →
      reactor.Gated)
    (h : system.step config action = some system') : Moved config system action system' := by
  cases action with
  | openStream registered admitted =>
    cases h
    exact .opened _ _ (Reactor.fresh_construct registered admitted)
  | readDone stream request =>
    dsimp only [step] at h
    split at h
    next => cases h
    next reactor hreactor =>
      obtain ⟨hguard, ⟨⟩⟩ := Option.ite_none_left_eq_some.mp h
      exact moved_readDone (fun hnone => hnone ▸ rfl) hreactor (Bool.eq_true_of_not_eq_false (not_or.mp hguard).1)
  | writeDone stream ok =>
    dsimp only [step] at h
    split at h
    next => cases h
    next reactor hreactor =>
      obtain ⟨hflight, hinvoke⟩ := Option.ite_none_left_eq_some.mp h
      refine moved_invoke (fun other hother hopen => ?_) hinvoke
      cases hreactor.symm.trans hother
      have hstarted := (hgated stream reactor hreactor).1 hopen
      exact ⟨Reactor.acts_writeDone hstarted (Bool.eq_true_of_not_eq_false hflight) ok,
        Reactor.writeDone_keeps hopen hstarted ok⟩
  | cancel stream =>
    dsimp only [step] at h
    exact moved_invoke
      (fun _ _ _ => ⟨Reactor.acts_terminate rfl _ _ _, Reactor.terminate_keeps _ _ _⟩) h
  | shutdown stream =>
    dsimp only [step] at h
    exact moved_invoke
      (fun _ _ _ => ⟨Reactor.acts_terminate rfl _ _ _, Reactor.terminate_keeps _ _ _⟩) h
  | tick stream expired =>
    exact moved_invoke (fun _ _ _ => ⟨Reactor.acts_tick _ _, Reactor.tick_keeps _ _⟩) h
  | gateDetach stream =>
    dsimp only [step] at h
    split at h
    next => cases h
    next reactor hreactor =>
      obtain ⟨hgate, ⟨⟩⟩ := Option.ite_none_right_eq_some.mp h
      exact .gateClosed _ stream reactor hreactor hgate
  | done stream =>
    dsimp only [step] at h
    split at h
    next => cases h
    next reactor hreactor =>
      obtain ⟨⟨hgate, hdestroyed⟩, ⟨⟩⟩ := Option.ite_none_right_eq_some.mp h
      exact moved_done rfl hreactor hgate hdestroyed
  | submitSample now =>
    obtain ⟨executor', hsubmit, rfl⟩ := Option.map_eq_some_iff.mp h
    exact .submitted _ _ executor' (.inr ⟨now, rfl⟩) hsubmit
  | submitOther =>
    obtain ⟨executor', hsubmit, rfl⟩ := Option.map_eq_some_iff.mp h
    exact .submitted _ _ executor' (.inl rfl) hsubmit
  | take index inputs =>
    obtain ⟨hguard, hmap⟩ := Option.ite_none_left_eq_some.mp h
    obtain ⟨⟨task, executor'⟩, htake, rfl⟩ := Option.map_eq_some_iff.mp hmap
    obtain ⟨hworker, hguard⟩ := not_or.mp hguard
    obtain ⟨hid, hfresh⟩ := not_or.mp hguard
    exact .took index inputs task executor' (Decidable.of_not_not hworker) hid hfresh htake
  | call =>
    dsimp only [step] at h
    split at h
    next => cases h
    next call rest hworker =>
      cases h
      exact .called call rest hworker

end RpcSystem

end LinuxcncCtrl
