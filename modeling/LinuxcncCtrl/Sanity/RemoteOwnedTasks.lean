import LinuxcncCtrl.Sanity.RemoteOwnership

/-! The tasks of the worker and who will end an attachment. A detach leaves the queue when the attachment it ends
is over, and a request that is granted puts the attachment into the result that is to be delivered. -/

namespace LinuxcncCtrl

open Lib

variable {F : Type}

namespace RpcSystem

variable {config : RegistryConfig} {system : RpcSystem F} {stream : ℕ} {reactor : Reactor F}
  {result : RemoteComponentResult F} {executor' : BoundedExecutor (HalTask F)} {registry' : Registry F ℕ}
  {grants' : List Grant}

/-- A task leaves the queue; a detach only when the attachment it ends is over. -/
theorem Inv.taken (h : system.Inv) {index : ℕ} {item : ExecutorItem (HalTask F)}
    (hitem : system.executor.queue[index]? = some item) (ordinary : ℕ)
    (hdone : ∀ id generation, item.task = .detach id generation →
      ∀ proxy, ¬ system.registry.Current id generation proxy) :
    ({ system with
      executor :=
        { system.executor with
          queue := system.executor.queue.eraseIdx index
          ordinaryQueued := ordinary } } : RpcSystem F).Inv := by
  have hperm := BoundedExecutor.eraseIdx_perm hitem
  refine ⟨h.fenced.quiet (.refl _) rfl h.fenced.gated, h.retained, h.handled, ?_, ?_,
    h.delivering, h.timeouts, h.holder, ?_⟩
  · intro stream reactor hreactor
    have hcount := hperm.countP_eq (ExecutorItem.consumes stream)
    have hcredit := h.credit stream reactor hreactor
    rw [List.countP_cons] at hcount
    dsimp only
    omega
  · intro other hother
    exact h.queued other (hperm.mem_iff.mp (List.mem_cons_of_mem _ hother))
  · intro hrefused id generation proxy stream reactor hcurrent hcallbacks hreactor hid hgeneration
    rcases h.owned hrefused id generation proxy stream reactor hcurrent hcallbacks hreactor hid
      hgeneration with hrequested | ⟨other, hother, htask⟩
    · exact .inl hrequested
    · rcases List.mem_cons.mp (hperm.mem_iff.mpr hother) with rfl | hleft
      · exact absurd hcurrent (hdone id generation htask proxy)
      · exact .inr ⟨other, hleft, htask⟩

theorem Inv.quiet (h : system.Inv) {worker' : List (WorkerCall F)}
    (hquiet : system.registry.Quiet registry')
    (hfenced : ({ system with registry := registry', worker := worker', grants := grants' } :
      RpcSystem F).Fenced)
    (hcredit : ∀ (stream : ℕ) (reactor : Reactor F), system.reactors[stream]? = some reactor →
      reactor.credit + system.executor.queue.countP (ExecutorItem.consumes stream) +
        worker'.countP (WorkerCall.delivers stream) ≤ 1)
    (hdelivering : ∀ stream result, .deliver stream result ∈ worker' → worker' = [.deliver stream result] ∧
        ∃ reactor, system.reactors[stream]? = some reactor ∧ Expects registry' stream reactor result)
    (htimeouts : ∀ stream generation,
      .callback (.heartbeatTimeout stream generation) ∈ worker' → 1 ≤ generation ∧
        ∀ id proxy, registry'.Current id generation proxy → proxy.callbacks ≠ some stream)
    (hheld : ∀ stream reactor result proxy, system.reactors[stream]? = some reactor →
      reactor.proxyId = [] → .deliver stream result ∈ system.worker →
      ¬ registry'.Current result.proxyId result.generation proxy) :
    ({ system with registry := registry', worker := worker', grants := grants' } : RpcSystem F).Inv := by
  refine ⟨hfenced, ?_, h.handled, hcredit, h.queued, hdelivering, htimeouts, ?_, ?_⟩
  · intro id proxy' hlookup'
    obtain ⟨proxy, hlookup, hfollows⟩ := hquiet.follows id proxy' hlookup'
    rw [hfollows.generation]
    exact h.retained id proxy hlookup
  · intro id generation proxy' hcurrent'
    obtain ⟨proxy, hcurrent, hfollows⟩ := hquiet.current hcurrent'
    obtain ⟨stream, reactor, hcallbacks, hreactor, hholds⟩ := h.holder id generation proxy hcurrent
    refine ⟨stream, reactor, (hfollows.attached hcurrent'.2.1).2.trans hcallbacks, hreactor, ?_⟩
    rcases hholds with hholds | ⟨hfree, result, hmem, rfl, rfl⟩
    · exact .inl hholds
    · exact absurd hcurrent' (hheld stream reactor result proxy' hreactor hfree hmem)
  · intro hrefused id generation proxy' stream reactor hcurrent' hcallbacks'
    obtain ⟨proxy, hcurrent, hfollows⟩ := hquiet.current hcurrent'
    rw [(hfollows.attached hcurrent'.2.1).2] at hcallbacks'
    exact h.owned hrefused id generation proxy stream reactor hcurrent hcallbacks'

theorem mem_worker_nil {call : WorkerCall F} (hworker : system.worker = []) : call ∉ system.worker := by
  rw [hworker]
  exact List.not_mem_nil

section

variable (h : system.Inv) (hworker : system.worker = []) (hreactor : system.reactors[stream]? = some reactor)
  (hcredit : reactor.credit + system.executor.queue.countP (ExecutorItem.consumes stream) = 0)

include h hworker hreactor hcredit

/-- The worker has a result for a stream that has no other request under way. -/
theorem Inv.credit_delivering (result : RemoteComponentResult F) (other : ℕ) (found : Reactor F)
    (hfound : system.reactors[other]? = some found) :
    found.credit + system.executor.queue.countP (ExecutorItem.consumes other) +
      [WorkerCall.deliver stream result].countP (WorkerCall.delivers other) ≤ 1 := by
  rw [List.countP_singleton, WorkerCall.delivers]
  by_cases hother : stream = other
  · subst hother
    cases hreactor.symm.trans hfound
    rw [hcredit, decide_eq_true rfl]
    exact Nat.le_refl _
  · have hbefore := h.credit other found hfound
    rw [hworker] at hbefore
    rw [decide_eq_false hother]
    exact hbefore

theorem Inv.granting {proxy : Proxy F ℕ} {message : HalComponentAttached F} (hfree : reactor.proxyId = [])
    (hregistry : ∀ id, registry'.proxies.lookup id =
      if id = proxy.id then some proxy else system.registry.proxies.lookup id) (hid : proxy.id ≠ [])
    (hgeneration : 1 ≤ proxy.generation) (hattached : proxy.attached = true)
    (hcallbacks : proxy.callbacks = some stream) (hstatus : result.status.code = .ok)
    (hclose : result.close = false) (hresponse : result.response = some (.attached message))
    (hproxy : result.proxyId = proxy.id) (hresult : result.generation = proxy.generation)
    (hfenced : ({ system with
      registry := registry', worker := [.deliver stream result], grants := grants' } :
      RpcSystem F).Fenced) :
    ({ system with registry := registry', worker := [.deliver stream result], grants := grants' } :
      RpcSystem F).Inv := by
  have hcurrent : registry'.Current result.proxyId result.generation proxy := by
    refine ⟨?_, hattached, hresult.symm⟩
    rw [hregistry, if_pos hproxy]
  have hothers : ∀ id generation found, registry'.Current id generation found →
      id = proxy.id ∧ found = proxy ∧ generation = proxy.generation ∨
        id ≠ proxy.id ∧ system.registry.Current id generation found := by
    rintro id generation found ⟨hlookup, hfound, hfoundGeneration⟩
    rw [hregistry] at hlookup
    split_ifs at hlookup with hsame
    · cases hlookup
      exact .inl ⟨hsame, rfl, hfoundGeneration.symm⟩
    · exact .inr ⟨hsame, hlookup, hfound, hfoundGeneration⟩
  refine ⟨hfenced, ?_, h.handled, h.credit_delivering hworker hreactor hcredit result, h.queued, ?_,
    ?_, ?_, ?_⟩
  · intro id found hlookup
    rw [hregistry] at hlookup
    split_ifs at hlookup with hsame
    · rw [hsame, ← Option.some.inj hlookup]
      exact ⟨hid, hgeneration⟩
    · exact h.retained id found hlookup
  · intro other found hmem
    cases List.mem_singleton.mp hmem
    exact ⟨rfl, reactor, hreactor, .granted proxy message hstatus hclose hresponse
      (hproxy ▸ hid) hfree hcurrent hcallbacks⟩
  · intro other generation hmem
    cases List.mem_singleton.mp hmem
  · intro id generation found hfound
    rcases hothers id generation found hfound with ⟨rfl, rfl, rfl⟩ | ⟨-, hbefore⟩
    · exact ⟨stream, reactor, hcallbacks, hreactor, .inr ⟨hfree, result,
        List.mem_singleton_self _, hproxy, hresult⟩⟩
    · obtain ⟨holder, held, hheldCallbacks, hheld, hholds⟩ := h.holder id generation found hbefore
      refine ⟨holder, held, hheldCallbacks, hheld, ?_⟩
      rcases hholds with hholds | ⟨-, other, hmem, -⟩
      · exact .inl hholds
      · exact absurd hmem (mem_worker_nil hworker)
  · intro hrefused id generation found other held hfound hfoundCallbacks hheld hheldId
    rcases hothers id generation found hfound with ⟨rfl, rfl, -⟩ | ⟨-, hbefore⟩
    · cases hcallbacks.symm.trans hfoundCallbacks
      cases hreactor.symm.trans hheld
      exact absurd (hheldId.symm.trans hfree) hid
    · exact h.owned hrefused id generation found other held hbefore hfoundCallbacks hheld hheldId

end

section Took

variable [BEq F] {inputs : RegistryInputs F}

theorem Inv.consume (h : system.Inv) (hworker : system.worker = [])
    (hreactor : system.reactors[stream]? = some reactor)
    (hcredit : reactor.credit + system.executor.queue.countP (ExecutorItem.consumes stream) = 0)
    (hid : inputs.proxyId ≠ []) (request : HalComponentClientMessage F) :
    (system.runTask config inputs
      (.consume stream reactor.proxyId reactor.generation request)).Inv := by
  have hfenced : (system.runTask config inputs
      (.consume stream reactor.proxyId reactor.generation request)).Fenced := h.fenced.runTask _ _
  have hcredit' := h.credit_delivering hworker hreactor hcredit
  have hheld : ∀ registry' : Registry F ℕ, ∀ stream reactor result proxy,
      system.reactors[stream]? = some reactor → reactor.proxyId = [] →
      .deliver stream result ∈ system.worker →
      ¬ registry'.Current result.proxyId result.generation proxy :=
    fun _ _ _ _ _ _ _ hmem => absurd hmem (mem_worker_nil hworker)
  unfold runTask at hfenced ⊢
  dsimp only at hfenced ⊢
  generalize hresult : system.registry.consume config inputs reactor.proxyId reactor.generation stream
    request = consumed at hfenced ⊢
  have hconsumed := hresult ▸ Registry.consume_consumed
  cases hconsumed with
  | refused slab admission status hstatus =>
    refine h.quiet ⟨rfl, fun id proxy hlookup => ⟨proxy, hlookup, .refl proxy⟩⟩ hfenced
      (hcredit' _) ?_ ?_ (hheld _)
    · intro other result hmem
      obtain ⟨rfl, rfl⟩ := WorkerCall.deliver.inj (List.mem_singleton.mp hmem)
      exact ⟨rfl, reactor, hreactor, .refused hstatus rfl⟩
    · intro other generation hmem
      cases List.mem_singleton.mp hmem
  | created create definitions component namePrefix slab admission hfirst _ _ _ =>
    exact h.granting hworker hreactor hcredit hfirst (fun id => Registry.lookup_setProxy _ _ id) hid
      (Nat.le_refl 1) rfl rfl rfl rfl rfl rfl rfl hfenced
  | attached proxy id hfirst hlookup _ =>
    have hkey := h.fenced.keyed id proxy hlookup
    refine h.granting hworker hreactor hcredit hfirst (fun id => Registry.lookup_setProxy _ _ id) ?_
      (Nat.le_add_left _ _) rfl rfl rfl rfl rfl rfl rfl hfenced
    exact (hkey.trans_ne (h.retained id proxy hlookup).1)
  | dispatched proxy hlater hcurrent =>
    have hkey := h.fenced.keyed _ proxy hcurrent.1
    have hdispatched := Registry.dispatched_dispatch system.registry proxy inputs.now request
    obtain ⟨hproxy, hgeneration, -⟩ := hdispatched.replies
    refine h.quiet (Registry.quiet_dispatched h.fenced.keyed hcurrent.1 hdispatched) hfenced
      (hcredit' _) ?_ ?_ (hheld _)
    · intro other result hmem
      obtain ⟨rfl, rfl⟩ := WorkerCall.deliver.inj (List.mem_singleton.mp hmem)
      refine ⟨rfl, reactor, hreactor, .dispatched (hproxy.trans hkey)
        (hgeneration.trans hcurrent.2.2) hlater (Registry.dispatch_response _ _ _ _) ?_⟩
      · intro hclose found
        rw [hproxy, hkey]
        exact hdispatched.closed h.fenced.keyed hcurrent.1 hclose _ found
    · intro other generation hmem
      cases List.mem_singleton.mp hmem

theorem Inv.sample (h : system.Inv) (hworker : system.worker = []) (now : ℤ) :
    (system.runTask config inputs (.sample now)).Inv := by
  have hquiet := Registry.quiet_sampleIds config inputs.calls now system.registry.proxies.keys
    h.fenced.keyed
  refine h.quiet hquiet (h.fenced.quiet hquiet rfl h.fenced.gated) ?_ ?_ ?_
    fun _ _ _ _ _ _ hmem => absurd hmem (mem_worker_nil hworker)
  · intro stream reactor hreactor
    have hcredit := h.credit stream reactor hreactor
    have hnone : ((system.registry.sample config inputs.calls now).2.map WorkerCall.callback).countP
        (WorkerCall.delivers stream) = 0 := by
      rw [List.countP_eq_zero]
      intro call hcall hdelivers
      obtain ⟨callback, -, rfl⟩ := List.mem_map.mp hcall
      cases hdelivers
    rw [hnone]
    omega
  · intro stream result hmem
    obtain ⟨callback, -, hcall⟩ := List.mem_map.mp hmem
    cases hcall
  · intro stream generation hmem
    obtain ⟨callback, hcallback, hcall⟩ := List.mem_map.mp hmem
    cases hcall
    obtain ⟨id, proxy, hcurrent, hcallbacks, hends⟩ :=
      Registry.sampleIds_timeout h.fenced.keyed hcallback
    refine ⟨hcurrent.2.2 ▸ (h.retained id proxy hcurrent.1).2, fun other found hfound heq => ?_⟩
    -- a stream holds one attachment, and this one has just ended
    obtain ⟨before, hbefore, hfollows⟩ := hquiet.current hfound
    rw [(hfollows.attached hfound.2.1).2] at heq
    have hsame : other = id := h.separate other before id proxy stream hbefore.1 hcurrent.1
      hbefore.2.1 hcurrent.2.1 heq hcallbacks
    exact hends found (hsame ▸ hfound)

theorem Inv.took (h : system.Inv) (hworker : system.worker = []) (hid : inputs.proxyId ≠ [])
    {index : ℕ} {task : HalTask F} {executor' : BoundedExecutor (HalTask F)}
    (htake : system.executor.take index = some (task, executor')) :
    ({ system with executor := executor' }.runTask config inputs task).Inv := by
  obtain ⟨item, hitem, rfl, rfl⟩ := BoundedExecutor.take_some htake
  have hperm := BoundedExecutor.eraseIdx_perm hitem
  cases htask : item.task with
  | consume stream proxyId generation request =>
    have hmem := List.mem_of_getElem? hitem
    obtain ⟨reactor, hreactor, rfl, rfl⟩ := h.queued item hmem stream proxyId generation request htask
    have hcredit := h.credit stream reactor hreactor
    have hcount := hperm.countP_eq (ExecutorItem.consumes stream)
    have hitemCount : item.consumes stream = true := by
      rw [ExecutorItem.consumes, htask]
      exact decide_eq_true rfl
    rw [List.countP_cons, hitemCount, if_pos rfl] at hcount
    have hbase := h.taken hitem (system.executor.ordinaryQueued - (!item.cleanup).toNat)
      fun id generation heq => by cases htask.symm.trans heq
    refine hbase.consume hworker hreactor ?_ hid request
    dsimp only
    omega
  | detach id generation =>
    -- the attachment is over before its detach leaves the queue
    have hquiet := Registry.quiet_detach h.fenced.keyed id generation
    have hdetached : ({ system with registry := system.registry.detach id generation } :
        RpcSystem F).Inv := by
      refine h.quiet hquiet (h.fenced.quiet hquiet rfl h.fenced.gated) h.credit ?_ ?_ ?_
      · exact fun _ _ hmem => absurd hmem (mem_worker_nil hworker)
      · exact fun _ _ hmem => absurd hmem (mem_worker_nil hworker)
      · exact fun _ _ _ _ _ _ hmem => absurd hmem (mem_worker_nil hworker)
    refine hdetached.taken hitem _ fun other otherGeneration heq => ?_
    cases htask.symm.trans heq
    exact Registry.detach_not_current h.fenced.keyed id generation
  | sample now =>
    have hbase := h.taken hitem (system.executor.ordinaryQueued - (!item.cleanup).toNat)
      fun id generation heq => by cases htask.symm.trans heq
    exact hbase.sample hworker now
  | other => exact h.taken hitem _ fun id generation heq => by cases htask.symm.trans heq

end Took

end RpcSystem

end LinuxcncCtrl
