import LinuxcncCtrl.Sanity.RemoteOwnedTasks

/-! The calls of the worker and who will end an attachment. A delivered result gives the attachment to its stream,
one that cannot be delivered ends it, and with that every step keeps the invariant. -/

namespace LinuxcncCtrl

open Lib

variable {F : Type}

namespace RpcSystem

variable {config : RegistryConfig} {system : RpcSystem F} {stream : ℕ} {reactor reactor' : Reactor F}
  {result : RemoteComponentResult F} {rest : List (WorkerCall F)}
  {updated : Reactor F × BoundedExecutor (HalTask F)} {executor' : BoundedExecutor (HalTask F)}
  {registry' : Registry F ℕ}

theorem Inv.deliver_head (h : system.Inv) (hworker : system.worker = .deliver stream result :: rest) :
    rest = [] := by
  have hmem : WorkerCall.deliver stream result ∈ system.worker := hworker ▸ List.mem_cons_self
  have hone := (h.delivering stream result hmem).1
  rw [hworker] at hone
  exact (List.cons.inj hone).2

theorem Inv.callback_head (h : system.Inv) {callback : CallbackCall F ℕ}
    (hworker : system.worker = .callback callback :: rest)
    (stream : ℕ) (result : RemoteComponentResult F) : .deliver stream result ∉ system.worker := by
  intro hmem
  have hone := (h.delivering stream result hmem).1
  rw [hworker] at hone
  cases (List.cons.inj hone).1

theorem Inv.popped (h : system.Inv) {callback : CallbackCall F ℕ}
    (hworker : system.worker = .callback callback :: rest) :
    ({ system with worker := rest } : RpcSystem F).Inv := by
  have hrest : ∀ call ∈ rest, call ∈ system.worker := fun call hcall =>
    hworker ▸ List.mem_cons_of_mem _ hcall
  refine h.quiet (.refl _) (h.fenced.quiet (.refl _) rfl h.fenced.gated) ?_ ?_
    (fun stream generation hmem => h.timeouts stream generation (hrest _ hmem)) ?_
  · intro stream reactor hreactor
    have hcredit := h.credit stream reactor hreactor
    rw [hworker, List.countP_cons] at hcredit
    omega
  · exact fun stream result hmem => absurd (hrest _ hmem) (h.callback_head hworker stream result)
  · exact fun stream _ result _ _ _ hmem => absurd hmem (h.callback_head hworker stream result)

theorem Inv.timedOut (h : system.Inv) (hreactor : system.reactors[stream]? = some reactor) {generation : ℕ}
    (hworker : system.worker = .callback (.heartbeatTimeout stream generation) :: rest) :
    ({ system with worker := rest }.setReactor stream
      (reactor.heartbeatTimeout generation, system.executor)).Inv := by
  have hpopped := h.popped hworker
  obtain ⟨hpositive, hover⟩ := h.timeouts stream generation (hworker ▸ List.mem_cons_self)
  rcases Reactor.heartbeatTimeout_cases reactor generation with
    ⟨-, heq⟩ | ⟨hgeneration, hsteady, hcredit⟩
  · rw [heq]
    exact hpopped.steady hreactor (.refl _) (Nat.le_refl _)
  · have hslack := hpopped.credit stream reactor hreactor
    have hproxy : reactor.proxyId ≠ [] := by
      intro hfree
      have hzero := ((h.handled stream reactor hreactor).free hfree).1
      omega
    refine hpopped.over hreactor hproxy hsteady.proxyId hsteady.generation hsteady.detachRequested
      ((h.fenced.gated stream reactor hreactor).heartbeatTimeout generation) ?_ fun proxy hcurrent => ?_
    · omega
    · exact hover _ proxy (hgeneration ▸ hcurrent)

section

variable (h : system.Inv) (hworker : system.worker = .deliver stream result :: rest)

include h hworker

theorem Inv.left (hquiet : system.registry.Quiet registry')
    (hlost : ∀ reactor proxy, system.reactors[stream]? = some reactor → reactor.proxyId = [] →
      ¬ registry'.Current result.proxyId result.generation proxy) :
    ({ system with worker := rest, registry := registry' } : RpcSystem F).Inv := by
  obtain rfl := h.deliver_head hworker
  refine h.quiet hquiet (h.fenced.quiet hquiet rfl h.fenced.gated) ?_ nofun nofun ?_
  · intro other reactor hreactor
    have hcredit := h.credit other reactor hreactor
    rw [List.countP_nil]
    omega
  · intro other reactor found proxy hreactor hfree hmem
    rw [hworker] at hmem
    cases List.mem_singleton.mp hmem
    exact hlost reactor proxy hreactor hfree

theorem Inv.delivered
    (hlost : result.proxyId = [] ∨
      ∀ reactor, system.reactors[stream]? = some reactor → reactor.proxyId ≠ []) :
    ({ system with worker := rest } : RpcSystem F).Inv := by
  refine h.left hworker (.refl _) fun reactor proxy hreactor hfree hcurrent => ?_
  rcases hlost with hnone | hheld
  · exact (h.retained _ proxy hcurrent.1).1 hnone
  · exact hheld reactor hreactor hfree

theorem Inv.undelivered :
    ({ system with
      worker := rest
      registry := system.registry.detach result.proxyId result.generation } : RpcSystem F).Inv :=
  h.left hworker (Registry.quiet_detach h.fenced.keyed _ _) fun _ proxy _ _ =>
    Registry.detach_not_current h.fenced.keyed _ _ proxy

theorem Inv.attached (hreactor : system.reactors[stream]? = some reactor) (hopen : reactor.gate = .opened)
    (hproxy : result.proxyId ≠ []) (hfree : reactor.proxyId = []) (hgated : reactor'.Gated)
    (hsteady : (reactor.setHandle result).Steady reactor') (hcredit : reactor'.credit ≤ reactor.credit + 1) :
    (({ system with worker := rest } : RpcSystem F).setReactor stream (reactor', system.executor)).Inv := by
  obtain rfl := h.deliver_head hworker
  have hbefore := h.credit stream reactor hreactor
  have hcount : system.worker.countP (WorkerCall.delivers stream) = 1 := by
    rw [hworker, List.countP_singleton, WorkerCall.delivers, decide_eq_true rfl]
    rfl
  have hset : reactor.setHandle result =
      { reactor with proxyId := result.proxyId, generation := result.generation } := by
    unfold Reactor.setHandle
    rw [if_neg hproxy]
  rw [hset] at hsteady
  have hget := getElem?_setReactor { system with worker := [] } hreactor (reactor', system.executor)
  have hfenced : ({ system with worker := [] } : RpcSystem F).Fenced :=
    h.fenced.quiet (.refl _) rfl h.fenced.gated
  -- no request of this stream is left in the queue
  have hnone : system.executor.queue.countP (ExecutorItem.consumes stream) = 0 := by omega
  refine ⟨hfenced.setReactor hgated, h.retained, ?_, ?_, ?_, fun _ _ hmem => absurd hmem List.not_mem_nil,
    fun _ _ hmem => absurd hmem List.not_mem_nil, ?_, ?_⟩
  · intro other found hfound
    rcases set_cases hget hfound with ⟨-, rfl⟩ | ⟨-, hfound⟩
    · refine ⟨fun hempty => absurd (hsteady.proxyId.symm.trans hempty) hproxy, fun hdestroyed => ?_⟩
      have hdone := (h.fenced.gated stream reactor hreactor).2 (hsteady.destroyed.symm.trans hdestroyed)
      cases hopen.symm.trans hdone
    · exact h.handled other found hfound
  · intro other found hfound
    dsimp only [RpcSystem.setReactor]
    rw [List.countP_nil]
    rcases set_cases hget hfound with ⟨rfl, rfl⟩ | ⟨-, hfound⟩
    · dsimp only
      omega
    · have hothers := h.credit other found hfound
      omega
  · intro item hitem other id generation request htask
    obtain ⟨found, hfound, hhandle⟩ := h.queued item hitem other id generation request htask
    have hother : other ≠ stream := fun hsame =>
      countP_consumes_eq_zero.mp hnone item hitem id generation request (hsame ▸ htask)
    refine ⟨found, ?_, hhandle⟩
    rw [hget, if_neg hother]
    exact hfound
  · intro id generation proxy hcurrent
    obtain ⟨other, found, hcallbacks, hfound, hholds⟩ := h.holder id generation proxy hcurrent
    by_cases hother : other = stream
    · subst hother
      cases hreactor.symm.trans hfound
      refine ⟨other, reactor', hcallbacks, ?_, .inl ?_⟩
      · rw [hget, if_pos rfl]
      · rcases hholds with ⟨hid, -⟩ | ⟨-, delivered, hmem, rfl, rfl⟩
        · exact absurd (hid.symm.trans hfree) (h.retained id proxy hcurrent.1).1
        · rw [hworker] at hmem
          cases List.mem_singleton.mp hmem
          exact ⟨hsteady.proxyId, hsteady.generation⟩
    · refine ⟨other, found, hcallbacks, ?_, ?_⟩
      · rw [hget, if_neg hother]
        exact hfound
      · rcases hholds with hholds | ⟨-, delivered, hmem, -⟩
        · exact .inl hholds
        · rw [hworker] at hmem
          exact absurd (WorkerCall.deliver.inj (List.mem_singleton.mp hmem)).1 hother
  · intro hrefused id generation proxy other found hcurrent hcallbacks hfound hid hgeneration
    rcases set_cases hget hfound with ⟨-, rfl⟩ | ⟨-, hfound⟩
    · exact .inl (hsteady.detachRequested.trans ((h.handled stream reactor hreactor).free hfree).2)
    · exact h.owned hrefused id generation proxy other found hcurrent hcallbacks hfound hid hgeneration

theorem Inv.deliver (hreactor : system.reactors[stream]? = some reactor) (hopen : reactor.gate = .opened) :
    ({ system with worker := rest }.setReactor stream (reactor.deliver system.executor result)).Inv := by
  obtain ⟨-, found, hfound, hexpects⟩ := h.delivering stream result (hworker ▸ List.mem_cons_self)
  cases hfound.symm.trans hreactor
  have hdelivers := Reactor.delivers_deliver stream reactor system.executor result
  have hgated := hdelivers.gated (h.fenced.gated stream reactor hreactor)
  have hslack : reactor.credit + system.executor.queue.countP (ExecutorItem.consumes stream) = 0 := by
    have hcredit := h.credit stream reactor hreactor
    have hcount : 0 < system.worker.countP (WorkerCall.delivers stream) := by
      rw [List.countP_pos_iff]
      exact ⟨.deliver stream result, hworker ▸ List.mem_cons_self, decide_eq_true rfl⟩
    omega
  generalize reactor.deliver system.executor result = updated at hdelivers hgated ⊢
  cases hexpects with
  | refused hstatus hnone =>
    have hbase := h.delivered hworker (.inl hnone)
    cases hdelivers with
    | failed _ _ hacts => exact hbase.acts hreactor hacts
    | settled reactor' hok _ _ => exact absurd hok hstatus
    | closed reactor' hok _ _ _ => exact absurd hok hstatus
  | granted proxy message hstatus hclose _ hproxy hfree _ _ =>
    cases hdelivers with
    | failed _ hfailed _ => exact absurd hstatus hfailed
    | settled reactor' _ hsteady hcredit =>
      exact h.attached hworker hreactor hopen hproxy hfree hgated hsteady hcredit
    | closed reactor' _ htrue _ _ => exact absurd (hclose.symm.trans htrue) (by decide)
  | dispatched hid hgeneration hproxy _ hends =>
    have hbase := h.delivered hworker (.inr fun other hother => by
      cases hreactor.symm.trans hother
      exact hproxy)
    have hrest := h.deliver_head hworker
    have hset : reactor.setHandle result =
        { reactor with proxyId := result.proxyId, generation := result.generation } := by
      unfold Reactor.setHandle
      rw [if_neg (hid ▸ hproxy)]
    cases hdelivers with
    | failed _ _ hacts => exact hbase.acts hreactor hacts
    | settled reactor' _ hsteady hcredit =>
      rw [hset] at hsteady
      refine hbase.still hreactor (hsteady.proxyId.trans hid) (hsteady.generation.trans hgeneration)
        hsteady.detachRequested (fun hdestroyed => .inl (hsteady.destroyed ▸ hdestroyed)) hgated ?_
      rw [hrest, List.countP_nil]
      dsimp only
      omega
    | closed reactor' _ hclose hsteady hcredit =>
      rw [hset] at hsteady
      refine hbase.over hreactor hproxy (hsteady.proxyId.trans hid) (hsteady.generation.trans hgeneration)
        hsteady.detachRequested hgated ?_ fun found hcurrent => ?_
      · rw [hrest, List.countP_nil]
        dsimp only
        omega
      · rw [← hid, ← hgeneration] at hcurrent
        exact absurd hcurrent (hends hclose found)

end

theorem Inv.called (h : system.Inv) {call : WorkerCall F} {system' : RpcSystem F}
    (hworker : system.worker = call :: rest)
    (hcalled : ({ system with worker := rest } : RpcSystem F).Called call system') : system'.Inv := by
  cases hcalled with
  | delivered result hreactor hopen => exact h.deliver hworker hreactor hopen
  | undelivered result _ =>
    split_ifs with hnone
    · exact h.delivered hworker (.inl hnone)
    · exact h.undelivered hworker
  | offered message hreactor _ =>
    exact (h.popped hworker).steady hreactor (Reactor.steady_offerDelta _ _) (Reactor.credit_offerDelta _ _).le
  | timedOut generation hreactor => exact h.timedOut hreactor hworker
  | dropped _ _ => exact h.popped hworker

theorem Inv.moved [BEq F] {action : RpcAction F} {system' : RpcSystem F} (h : system.Inv)
    (hmoved : Moved config system action system') : system'.Inv := by
  cases hmoved with
  | opened _ reactor hfresh => exact h.opened hfresh
  | acted _ stream reactor updated hreactor hacts _ => exact h.acts hreactor hacts
  | gateClosed _ stream reactor hreactor _ =>
    exact h.still hreactor rfl rfl rfl .inl ⟨nofun, fun _ => rfl⟩ (h.credit stream reactor hreactor)
  | ended _ stream reactor hreactor hgate hskip =>
    exact h.still hreactor rfl rfl rfl (fun _ => .inr hskip.symm)
      ⟨(h.fenced.gated stream reactor hreactor).1, fun _ => hgate⟩ (h.credit stream reactor hreactor)
  | endedDetach _ stream reactor _ hreactor hgate _ hproxy _ =>
    exact h.detaching hreactor hproxy rfl rfl rfl
      ⟨(h.fenced.gated stream reactor hreactor).1, fun _ => hgate⟩ (Nat.le_refl _)
  | submitted _ task executor' htask hsubmit => exact h.submitted htask hsubmit
  | took index inputs task executor' hworker hid _ htake => exact h.took hworker hid htake
  | called call rest hworker => exact h.called hworker (runCall_called _ call)

theorem inv_empty (capacity cleanupReserve : ℕ) (admission : AdmissionCounter) (slab : HalAllocationSlab) :
    ({ registry := { admission, slab }, executor := { capacity, cleanupReserve } } : RpcSystem F).Inv where
  fenced := fenced_empty capacity cleanupReserve admission slab
  retained id proxy hlookup := by cases hlookup
  handled stream reactor hreactor := by cases hreactor
  credit stream reactor hreactor := by cases hreactor
  queued item hitem := by cases hitem
  delivering stream result hmem := by cases hmem
  timeouts stream generation hmem := by cases hmem
  holder id generation proxy hcurrent := by cases hcurrent.1
  owned _ id generation proxy stream reactor hcurrent := by cases hcurrent.1

end RpcSystem

end LinuxcncCtrl
