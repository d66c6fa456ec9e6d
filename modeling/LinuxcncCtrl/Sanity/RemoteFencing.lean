import LinuxcncCtrl.Sanity.RemoteStreams

/-! The record of the attachments given to streams. Each is kept with the incarnation of its proxy;
those of one incarnation have increasing generations, and a proxy that is attached is in its last
one. -/

namespace LinuxcncCtrl

open Lib

variable {F : Type}

namespace RpcSystem

def AttachedTo (system : RpcSystem F) (stream : ℕ) (proxy : Proxy F ℕ) : Prop :=
  proxy.attached = true ∧
    { proxy with stream := stream } ∈ system.grants

structure Fenced (system : RpcSystem F) : Prop where
  gated : ∀ (stream : ℕ) (reactor : Reactor F), system.reactors[stream]? = some reactor →
    reactor.Gated
  keyed : system.registry.Keyed
  created : ∀ id proxy, system.registry.proxies.lookup id = some proxy →
    proxy.incarnation < system.registry.created
  distinct : ∀ id proxy id' proxy', system.registry.proxies.lookup id = some proxy →
    system.registry.proxies.lookup id' = some proxy' → proxy.incarnation = proxy'.incarnation →
    id = id'
  latest : ∀ id proxy, system.registry.proxies.lookup id = some proxy →
    ∀ grant ∈ system.grants, grant.incarnation = proxy.incarnation → grant.generation ≤ proxy.generation
  earlier : ∀ grant ∈ system.grants, grant.incarnation < system.registry.created
  increasing : system.grants.Pairwise fun first second =>
    first.incarnation = second.incarnation → first.generation < second.generation
  holder : ∀ id proxy, system.registry.proxies.lookup id = some proxy →
    (proxy.attached = true → ∃ stream, proxy.callbacks = some stream ∧ system.AttachedTo stream proxy) ∧
    (proxy.attached = false → proxy.callbacks = none)

variable {config : RegistryConfig} {system system' : RpcSystem F} {stream : ℕ} {proxy : Proxy F ℕ}

theorem Fenced.quiet (h : system.Fenced) (hquiet : system.registry.Quiet system'.registry)
    (hgrants : system'.grants = system.grants)
    (hgated : ∀ (stream : ℕ) (reactor : Reactor F), system'.reactors[stream]? = some reactor →
      reactor.Gated) : system'.Fenced where
  gated := hgated
  keyed := hquiet.keyed h.keyed
  created id proxy' hlookup' := by
    obtain ⟨proxy, hlookup, hfollows⟩ := hquiet.follows id proxy' hlookup'
    rw [hfollows.incarnation, hquiet.created]
    exact h.created id proxy hlookup
  distinct id proxy' id₂ proxy₂' hlookup' hlookup₂' hsame := by
    obtain ⟨proxy, hlookup, hfollows⟩ := hquiet.follows id proxy' hlookup'
    obtain ⟨proxy₂, hlookup₂, hfollows₂⟩ := hquiet.follows id₂ proxy₂' hlookup₂'
    rw [hfollows.incarnation, hfollows₂.incarnation] at hsame
    exact h.distinct id proxy id₂ proxy₂ hlookup hlookup₂ hsame
  latest id proxy' hlookup' grant hgrant hsame := by
    obtain ⟨proxy, hlookup, hfollows⟩ := hquiet.follows id proxy' hlookup'
    rw [hgrants] at hgrant
    rw [hfollows.incarnation] at hsame
    rw [hfollows.generation]
    exact h.latest id proxy hlookup grant hgrant hsame
  earlier grant hgrant := by
    rw [hgrants] at hgrant
    rw [hquiet.created]
    exact h.earlier grant hgrant
  increasing := by
    rw [hgrants]
    exact h.increasing
  holder id proxy' hlookup' := by
    obtain ⟨proxy, hlookup, hfollows⟩ := hquiet.follows id proxy' hlookup'
    obtain ⟨hheld, hfree⟩ := h.holder id proxy hlookup
    refine ⟨fun hattached' => ?_, fun hfalse => ?_⟩
    · obtain ⟨hattached, hcallbacks⟩ := hfollows.attached hattached'
      obtain ⟨stream, hstream, hgrant⟩ := hheld hattached
      refine ⟨stream, hcallbacks.trans hstream, hattached', ?_⟩
      rw [hgrants, hfollows.id, hfollows.incarnation, hfollows.generation]
      exact hgrant.2
    · rcases hfollows.holder with ⟨hsame, hcallbacks⟩ | ⟨-, hnone⟩
      · rw [hcallbacks]
        exact hfree (hsame.symm.trans hfalse)
      · exact hnone

theorem Fenced.setReactor (h : system.Fenced)
    {updated : Reactor F × BoundedExecutor (HalTask F)} (hgated : updated.1.Gated) :
    (system.setReactor stream updated).Fenced := by
  refine h.quiet (.refl _) rfl fun other reactor hreactor => ?_
  dsimp only [RpcSystem.setReactor] at hreactor
  rw [List.getElem?_set] at hreactor
  split_ifs at hreactor
  · cases hreactor
    exact hgated
  · exact h.gated other reactor hreactor

theorem granted_dispatch (registry registry' : Registry F ℕ) (stream : ℕ) (proxy : Proxy F ℕ)
    (now : ℤ) (request : HalComponentClientMessage F) :
    granted registry' stream (registry.dispatch proxy now request).2 = [] := by
  unfold granted
  split
  next message hresponse =>
    exact absurd hresponse (Registry.dispatch_response registry proxy now request message)
  next => rfl

theorem granted_snapshot (registry : Registry F ℕ) (stream : ℕ) (proxy : Proxy F ℕ)
    (calls : HalCalls F) (includeToken : Bool) {result : RemoteComponentResult F}
    (hresponse : result.response = some (.attached (proxy.encodeSnapshot config calls includeToken).2)) :
    granted (registry.setProxy (proxy.encodeSnapshot config calls includeToken).1) stream result =
      [{ proxy with stream := stream }] := by
  have hid : (proxy.encodeSnapshot config calls includeToken).2.proxyId =
      (proxy.encodeSnapshot config calls includeToken).1.id := rfl
  unfold granted
  rw [hresponse]
  dsimp only
  rw [Registry.lookup_setProxy, if_pos hid]
  rfl

/-- A proxy that is attached as the next generation of an incarnation that has no other id. -/
theorem Fenced.grant (h : system.Fenced) (hregistry : ∀ id, system'.registry.proxies.lookup id =
      if id = proxy.id then some proxy else system.registry.proxies.lookup id)
    (hcreated : system.registry.created ≤ system'.registry.created)
    (hincarnation : proxy.incarnation < system'.registry.created)
    (hother : ∀ id other, system.registry.proxies.lookup id = some other → id ≠ proxy.id →
      other.incarnation ≠ proxy.incarnation)
    (hnext : ∀ grant ∈ system.grants, grant.incarnation = proxy.incarnation →
      grant.generation < proxy.generation)
    (hattached : proxy.attached = true) (hcallbacks : proxy.callbacks = some stream)
    (hgrants : system'.grants = system.grants ++ [{ proxy with stream := stream }])
    (hreactors : system'.reactors = system.reactors) : system'.Fenced where
  gated := by
    rw [hreactors]
    exact h.gated
  keyed id found hlookup := by
    rw [hregistry] at hlookup
    split_ifs at hlookup with hid
    · rw [hid, Option.some.inj hlookup]
    · exact h.keyed id found hlookup
  created id found hlookup := by
    rw [hregistry] at hlookup
    split_ifs at hlookup with hid
    · rw [← Option.some.inj hlookup]
      exact hincarnation
    · exact (h.created id found hlookup).trans_le hcreated
  distinct id found id' found' hlookup hlookup' hsame := by
    rw [hregistry] at hlookup hlookup'
    split_ifs at hlookup hlookup' with hid hid'
    · rw [hid, hid']
    · rw [← Option.some.inj hlookup] at hsame
      exact absurd hsame.symm (hother id' found' hlookup' ‹_›)
    · rw [← Option.some.inj hlookup'] at hsame
      exact absurd hsame (hother id found hlookup hid)
    · exact h.distinct id found id' found' hlookup hlookup' hsame
  latest id found hlookup grant hgrant hsame := by
    rw [hregistry] at hlookup
    rw [hgrants, List.mem_append, List.mem_singleton] at hgrant
    split_ifs at hlookup with hid
    · cases hlookup
      rcases hgrant with hgrant | rfl
      · exact (hnext grant hgrant hsame).le
      · exact Nat.le_refl _
    · rcases hgrant with hgrant | rfl
      · exact h.latest id found hlookup grant hgrant hsame
      · exact absurd hsame.symm (hother id found hlookup hid)
  earlier grant hgrant := by
    rw [hgrants, List.mem_append, List.mem_singleton] at hgrant
    rcases hgrant with hgrant | rfl
    · exact (h.earlier grant hgrant).trans_le hcreated
    · exact hincarnation
  increasing := by
    rw [hgrants, List.pairwise_append]
    refine ⟨h.increasing, List.pairwise_singleton _ _, fun grant hgrant last hlast hsame => ?_⟩
    rw [List.mem_singleton.mp hlast] at hsame ⊢
    exact hnext grant hgrant hsame
  holder id found hlookup := by
    rw [hregistry] at hlookup
    split_ifs at hlookup with hid
    · cases hlookup
      refine ⟨fun _ => ⟨stream, hcallbacks, hattached, ?_⟩, fun hfalse => ?_⟩
      · rw [hgrants]
        exact List.mem_append_right _ (List.mem_singleton_self _)
      · cases hattached.symm.trans hfalse
    · obtain ⟨hheld, hfree⟩ := h.holder id found hlookup
      refine ⟨fun htrue => ?_, hfree⟩
      obtain ⟨holder, hholder, hgrant⟩ := hheld htrue
      refine ⟨holder, hholder, hgrant.1, ?_⟩
      rw [hgrants]
      exact List.mem_append_left _ hgrant.2

theorem Fenced.consume [BEq F] (h : system.Fenced) (inputs : RegistryInputs F) (stream : ℕ)
    (proxyId : HalName) (generation : ℕ) (request : HalComponentClientMessage F) :
    (system.runTask config inputs (.consume stream proxyId generation request)).Fenced := by
  unfold runTask
  dsimp only
  generalize hresult :
    system.registry.consume config inputs proxyId generation stream request = consumed
  have hconsumed := hresult ▸ Registry.consume_consumed
  cases hconsumed with
  | refused slab admission status _ =>
    refine h.quiet ⟨rfl, fun id proxy hlookup => ⟨proxy, hlookup, .refl proxy⟩⟩ ?_ h.gated
    exact List.append_nil _
  | created create definitions component namePrefix slab admission _ _ _ _ =>
    -- the new proxy has an incarnation of its own
    refine h.grant (fun id => Registry.lookup_setProxy _ _ id) (Nat.le_succ _) (Nat.lt_succ_self _)
      (fun id other hlookup _ => (h.created id other hlookup).ne) (fun grant hgrant hsame => ?_) rfl
      rfl ?_ rfl
    · exact absurd hsame (h.earlier grant hgrant).ne
    · exact congrArg (system.grants ++ ·) (granted_snapshot _ _ _ _ _ rfl)
  | attached proxy id _ hlookup _ =>
    have hid := h.keyed id proxy hlookup
    refine h.grant (fun id => Registry.lookup_setProxy _ _ id) (Nat.le_refl _)
      (h.created id proxy hlookup) (fun other found hfound hne hsame => ?_)
      (fun grant hgrant hsame => ?_) rfl rfl ?_ rfl
    · exact hne ((h.distinct other found id proxy hfound hlookup hsame).trans hid.symm)
    · exact Nat.lt_succ_of_le (h.latest id proxy hlookup grant hgrant hsame)
    · exact congrArg (system.grants ++ ·) (granted_snapshot _ _ _ _ _ rfl)
  | dispatched proxy _ hcurrent =>
    refine h.quiet (Registry.quiet_dispatched h.keyed hcurrent.1 (Registry.dispatched_dispatch _ _ _ _)) ?_ h.gated
    rw [granted_dispatch, List.append_nil]

theorem Fenced.runTask [BEq F] (h : system.Fenced) (inputs : RegistryInputs F) (task : HalTask F) :
    (system.runTask config inputs task).Fenced := by
  cases task with
  | consume stream proxyId generation request => exact h.consume inputs stream proxyId generation request
  | detach proxyId generation =>
    exact h.quiet (Registry.quiet_detach h.keyed proxyId generation) rfl h.gated
  | sample now => exact h.quiet (Registry.quiet_sampleIds _ _ _ _ h.keyed) rfl h.gated
  | other => exact h

theorem Fenced.called {call : WorkerCall F} (h : system.Fenced) (hcalled : system.Called call system') :
    system'.Fenced := by
  cases hcalled with
  | @delivered stream reactor result hreactor _ =>
    exact h.setReactor ((Reactor.delivers_deliver stream _ _ result).gated (h.gated _ _ hreactor))
  | undelivered result _ =>
    split_ifs
    · exact h
    · exact h.quiet (Registry.quiet_detach h.keyed _ _) rfl h.gated
  | offered message hreactor _ =>
    exact h.setReactor ((Reactor.steady_offerDelta _ _).gated (h.gated _ _ hreactor))
  | timedOut generation hreactor => exact h.setReactor ((h.gated _ _ hreactor).heartbeatTimeout _)
  | dropped _ _ => exact h

theorem Fenced.moved [BEq F] {action : RpcAction F} (h : system.Fenced)
    (hmoved : Moved config system action system') :
    system'.Fenced := by
  cases hmoved with
  | opened _ reactor hfresh =>
    refine h.quiet (.refl _) rfl fun stream other hother => ?_
    rcases List.mem_append.mp (List.mem_of_getElem? hother) with hmem | hmem
    · obtain ⟨index, hindex⟩ := List.mem_iff_getElem?.mp hmem
      exact h.gated index other hindex
    · rw [List.mem_singleton.mp hmem]
      exact hfresh.gated
  | acted _ stream reactor updated hreactor hacts _ =>
    exact h.setReactor (hacts.gated (h.gated stream reactor hreactor))
  | gateClosed _ stream reactor hreactor _ => exact h.setReactor ⟨nofun, fun _ => rfl⟩
  | ended _ stream reactor hreactor hgate _ =>
    exact h.setReactor ⟨(h.gated stream reactor hreactor).1, fun _ => hgate⟩
  | endedDetach _ stream reactor _ hreactor hgate _ _ _ =>
    exact h.setReactor ⟨(h.gated stream reactor hreactor).1, fun _ => hgate⟩
  | submitted _ task executor' _ _ => exact h.quiet (.refl _) rfl h.gated
  | took index inputs task executor' _ _ _ _ =>
    apply Fenced.runTask
    exact h.quiet (.refl _) rfl h.gated
  | called call rest _ =>
    refine Fenced.called ?_ (runCall_called _ call)
    exact h.quiet (.refl _) rfl h.gated

theorem Fenced.run [BEq F] {initial : RpcSystem F} {actions : List (RpcAction F)}
    (h : initial.Fenced) (hrun : Run (RpcSystem.step config) initial actions system) :
    system.Fenced := by
  induction hrun with
  | nil => exact h
  | snoc _ hstep ih => exact ih.moved (step_moved ih.gated hstep)

theorem fenced_empty (capacity cleanupReserve : ℕ) (admission : AdmissionCounter)
    (slab : HalAllocationSlab) :
    ({ registry := { admission, slab }, executor := { capacity, cleanupReserve } } :
      RpcSystem F).Fenced where
  gated stream reactor hreactor := by cases hreactor
  keyed id proxy hlookup := by cases hlookup
  created id proxy hlookup := by cases hlookup
  distinct id proxy id' proxy' hlookup := by cases hlookup
  latest id proxy hlookup := by cases hlookup
  earlier grant hgrant := by cases hgrant
  increasing := List.Pairwise.nil
  holder id proxy hlookup := by cases hlookup

theorem Fenced.grant_unique (h : system.Fenced) {first second : Grant}
    (hfirst : first ∈ system.grants) (hsecond : second ∈ system.grants)
    (hincarnation : first.incarnation = second.incarnation)
    (hgeneration : first.generation = second.generation) : first = second := by
  have hordered := List.pairwise_iff_getElem.mp h.increasing
  obtain ⟨i, hi, rfl⟩ := List.getElem_of_mem hfirst
  obtain ⟨j, hj, rfl⟩ := List.getElem_of_mem hsecond
  rcases Nat.lt_trichotomy i j with hlt | rfl | hlt
  · exact absurd hgeneration (hordered i j hi hj hlt hincarnation).ne
  · rfl
  · exact absurd hgeneration.symm (hordered j i hj hi hlt hincarnation.symm).ne

theorem Fenced.attachedTo_unique (h : system.Fenced) {stream' : ℕ}
    (hstream : system.AttachedTo stream proxy) (hstream' : system.AttachedTo stream' proxy) :
    stream = stream' :=
  congrArg Grant.stream (h.grant_unique hstream.2 hstream'.2 rfl rfl)

end RpcSystem

end LinuxcncCtrl
