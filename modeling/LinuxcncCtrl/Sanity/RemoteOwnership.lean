import LinuxcncCtrl.Sanity.RemoteFencing

/-! Who will end an attachment. A stream has at most one request under way; an attached proxy belongs to
the stream its callbacks reach, or to the result the worker is about to deliver; and unless a detach was
refused, that stream has not requested its detach or the detach is in the queue. -/

namespace LinuxcncCtrl

open Lib

variable {F : Type}

def HalTask.consumes (stream : ℕ) : HalTask F → Bool
  | .consume consumer _ _ _ => decide (consumer = stream)
  | _ => false

def ExecutorItem.consumes (stream : ℕ) (item : ExecutorItem (HalTask F)) : Bool :=
  item.task.consumes stream

def WorkerCall.delivers (stream : ℕ) : WorkerCall F → Bool
  | .deliver other _ => decide (other = stream)
  | .callback _ => false

/-- A reactor without a handle has asked for no detach, and one that was destroyed with a handle has. -/
structure Reactor.Handled (reactor : Reactor F) : Prop where
  free : reactor.proxyId = [] → reactor.generation = 0 ∧ reactor.detachRequested = false
  ended : reactor.destroyed = true → reactor.proxyId = [] ∨ reactor.detachRequested = true

namespace RpcSystem

/-- What the result that is to be delivered to a stream can be. -/
inductive Expects (registry : Registry F ℕ) (stream : ℕ) (reactor : Reactor F)
    (result : RemoteComponentResult F) : Prop
  | refused : result.status.code ≠ .ok → result.proxyId = [] →
      Expects registry stream reactor result
  | granted (proxy : Proxy F ℕ) (message : HalComponentAttached F) : result.status.code = .ok →
      result.close = false → result.response = some (.attached message) → result.proxyId ≠ [] →
      reactor.proxyId = [] → registry.Current result.proxyId result.generation proxy →
      proxy.callbacks = some stream → Expects registry stream reactor result
  | dispatched : result.proxyId = reactor.proxyId → result.generation = reactor.generation →
      reactor.proxyId ≠ [] → (∀ message, result.response ≠ some (.attached message)) →
      (result.close = true → ∀ proxy, ¬ registry.Current result.proxyId result.generation proxy) →
      Expects registry stream reactor result

structure Inv (system : RpcSystem F) : Prop where
  fenced : system.Fenced
  retained : ∀ id proxy, system.registry.proxies.lookup id = some proxy →
    id ≠ [] ∧ 1 ≤ proxy.generation
  handled : ∀ (stream : ℕ) (reactor : Reactor F), system.reactors[stream]? = some reactor → reactor.Handled
  credit : ∀ (stream : ℕ) (reactor : Reactor F), system.reactors[stream]? = some reactor →
    reactor.credit + system.executor.queue.countP (ExecutorItem.consumes stream) +
      system.worker.countP (WorkerCall.delivers stream) ≤ 1
  queued : ∀ item ∈ system.executor.queue, ∀ stream id generation request,
    item.task = .consume stream id generation request →
    ∃ reactor, system.reactors[stream]? = some reactor ∧ reactor.proxyId = id ∧
      reactor.generation = generation
  delivering : ∀ stream result, .deliver stream result ∈ system.worker →
    system.worker = [.deliver stream result] ∧
      ∃ reactor, system.reactors[stream]? = some reactor ∧ Expects system.registry stream reactor result
  timeouts : ∀ stream generation,
    .callback (.heartbeatTimeout stream generation) ∈ system.worker → 1 ≤ generation ∧
      ∀ id proxy, system.registry.Current id generation proxy → proxy.callbacks ≠ some stream
  holder : ∀ id generation proxy, system.registry.Current id generation proxy →
    ∃ stream reactor, proxy.callbacks = some stream ∧ system.reactors[stream]? = some reactor ∧
      (reactor.proxyId = id ∧ reactor.generation = generation ∨
        reactor.proxyId = [] ∧ ∃ result, .deliver stream result ∈ system.worker ∧
          result.proxyId = id ∧ result.generation = generation)
  owned : system.executor.refused = [] → ∀ id generation proxy stream reactor,
    system.registry.Current id generation proxy → proxy.callbacks = some stream →
    system.reactors[stream]? = some reactor → reactor.proxyId = id →
    reactor.generation = generation → reactor.detachRequested = false ∨
      ∃ item ∈ system.executor.queue, item.task = .detach id generation

variable {system : RpcSystem F}

/-- A stream holds one attachment: the one of its handle, or the one that is to be delivered. -/
theorem Inv.separate (h : system.Inv) : system.registry.Separate := by
  intro id proxy id' proxy' stream hlookup hlookup' hattached hattached' hstream hstream'
  obtain ⟨holder, reactor, hholder, hreactor, hholds⟩ :=
    h.holder id proxy.generation proxy ⟨hlookup, hattached, rfl⟩
  obtain ⟨holder', reactor', hholder', hreactor', hholds'⟩ :=
    h.holder id' proxy'.generation proxy' ⟨hlookup', hattached', rfl⟩
  cases hstream.symm.trans hholder
  cases hstream'.symm.trans hholder'
  cases hreactor.symm.trans hreactor'
  rcases hholds with ⟨hid, -⟩ | ⟨hfree, result, hmem, hid, -⟩
  · rcases hholds' with ⟨hid', -⟩ | ⟨hfree, -⟩
    · exact hid.symm.trans hid'
    · exact absurd (hid.symm.trans hfree) (h.retained id proxy hlookup).1
  · rcases hholds' with ⟨hid', -⟩ | ⟨-, result', hmem', hid', -⟩
    · exact absurd (hid'.symm.trans hfree) (h.retained id' proxy' hlookup').1
    · rw [(h.delivering stream result hmem).1, List.mem_singleton] at hmem'
      cases hmem'
      exact hid.symm.trans hid'

/-- A stream gets another reactor with the same handle, or its first one, and puts `items` into the queue. -/
structure Updates (system : RpcSystem F) (stream : ℕ) (reactor reactor' : Reactor F)
    (reactors' : List (Reactor F)) (executor' : BoundedExecutor (HalTask F))
    (items : List (ExecutorItem (HalTask F))) : Prop where
  lookup : ∀ found, system.reactors[stream]? = some found → found = reactor
  set : ∀ other, reactors'[other]? = if other = stream then some reactor' else system.reactors[other]?
  queue : executor'.queue = system.executor.queue ++ items
  refused : executor'.refused = [] → system.executor.refused = []
  proxyId : reactor'.proxyId = reactor.proxyId
  generation : reactor'.generation = reactor.generation
  gated : reactor'.Gated
  handled : reactor'.Handled
  credit : reactor'.credit + (system.executor.queue ++ items).countP (ExecutorItem.consumes stream) +
    system.worker.countP (WorkerCall.delivers stream) ≤ 1
  consumes : ∀ item ∈ items, ∀ other id generation request,
    item.task = .consume other id generation request →
      other = stream ∧ id = reactor.proxyId ∧ generation = reactor.generation
  requested : reactor'.detachRequested = true → reactor.detachRequested = true ∨
    (∀ proxy, system.registry.Current reactor.proxyId reactor.generation proxy →
      proxy.callbacks ≠ some stream) ∨
    (executor'.refused = [] → ∃ item ∈ items, item.task = .detach reactor.proxyId reactor.generation)

variable {stream : ℕ} {reactor reactor' : Reactor F} {result : RemoteComponentResult F}
  {updated : Reactor F × BoundedExecutor (HalTask F)} {items : List (ExecutorItem (HalTask F))}
  {executor' : BoundedExecutor (HalTask F)} {reactors' : List (Reactor F)}

theorem getElem?_setReactor (system : RpcSystem F) (hreactor : system.reactors[stream]? = some reactor)
    (updated : Reactor F × BoundedExecutor (HalTask F)) (other : ℕ) :
    (system.setReactor stream updated).reactors[other]? =
      if other = stream then some updated.1 else system.reactors[other]? := by
  have hlength : stream < system.reactors.length := (List.getElem?_eq_some_iff.mp hreactor).1
  unfold setReactor
  by_cases hother : other = stream
  · rw [if_pos hother, hother, List.getElem?_set_self hlength]
  · rw [if_neg hother, List.getElem?_set_ne (Ne.symm hother)]

theorem set_cases {other : ℕ} {found : Reactor F}
    (hset : ∀ other, reactors'[other]? = if other = stream then some reactor' else system.reactors[other]?)
    (hfound : reactors'[other]? = some found) :
    other = stream ∧ reactor' = found ∨ other ≠ stream ∧ system.reactors[other]? = some found := by
  rw [hset] at hfound
  split_ifs at hfound with hother
  · exact .inl ⟨hother, Option.some.inj hfound⟩
  · exact .inr ⟨hother, hfound⟩

theorem countP_consumes_eq_zero :
    items.countP (ExecutorItem.consumes stream) = 0 ↔ ∀ item ∈ items, ∀ id generation request,
      item.task ≠ .consume stream id generation request := by
  rw [List.countP_eq_zero]
  refine forall₂_congr fun item _ => ?_
  unfold ExecutorItem.consumes
  cases item.task with
  | consume consumer id generation request =>
    simp only [HalTask.consumes, decide_eq_true_eq, ne_eq, HalTask.consume.injEq]
    exact ⟨fun hne _ _ _ heq => hne heq.1, fun h heq => h id generation request ⟨heq, rfl, rfl, rfl⟩⟩
  | detach id generation => simp [HalTask.consumes]
  | sample now => simp [HalTask.consumes]
  | other => simp [HalTask.consumes]

theorem Inv.updates (h : system.Inv)
    (hu : system.Updates stream reactor reactor' reactors' executor' items) :
    ({ system with reactors := reactors', executor := executor' } : RpcSystem F).Inv := by
  -- every reactor keeps its handle
  have hhandle : ∀ (other : ℕ) (found : Reactor F), system.reactors[other]? = some found →
      ∃ found', reactors'[other]? = some found' ∧
        found'.proxyId = found.proxyId ∧ found'.generation = found.generation := by
    intro other found hfound
    rw [hu.set]
    split_ifs with hother
    · rw [hu.lookup found (hother ▸ hfound)]
      exact ⟨reactor', rfl, hu.proxyId, hu.generation⟩
    · exact ⟨found, hfound, rfl, rfl⟩
  refine ⟨h.fenced.quiet (.refl _) rfl ?_, h.retained, ?_, ?_, ?_, ?_, h.timeouts, ?_, ?_⟩
  · intro other found hfound
    rcases set_cases hu.set hfound with ⟨-, rfl⟩ | ⟨-, hfound⟩
    · exact hu.gated
    · exact h.fenced.gated other found hfound
  · intro other found hfound
    rcases set_cases hu.set hfound with ⟨-, rfl⟩ | ⟨-, hfound⟩
    · exact hu.handled
    · exact h.handled other found hfound
  · intro other found hfound
    rw [hu.queue]
    rcases set_cases hu.set hfound with ⟨rfl, rfl⟩ | ⟨hother, hfound⟩
    · exact hu.credit
    · have hnone : items.countP (ExecutorItem.consumes other) = 0 :=
        countP_consumes_eq_zero.mpr fun item hitem id generation request htask =>
          hother (hu.consumes item hitem other id generation request htask).1
      rw [List.countP_append, hnone, Nat.add_zero]
      exact h.credit other found hfound
  · intro item hitem other id generation request htask
    rw [hu.queue, List.mem_append] at hitem
    rcases hitem with hitem | hitem
    · obtain ⟨found, hfound, hid, hgeneration⟩ := h.queued item hitem other id generation request htask
      obtain ⟨found', hfound', hid', hgeneration'⟩ := hhandle other found hfound
      exact ⟨found', hfound', hid'.trans hid, hgeneration'.trans hgeneration⟩
    · obtain ⟨rfl, rfl, rfl⟩ := hu.consumes item hitem other id generation request htask
      exact ⟨reactor', (hu.set _).trans (if_pos rfl), hu.proxyId, hu.generation⟩
  · intro other result hmem
    obtain ⟨hworker, found, hfound, hexpects⟩ := h.delivering other result hmem
    obtain ⟨found', hfound', hid, hgeneration⟩ := hhandle other found hfound
    refine ⟨hworker, found', hfound', ?_⟩
    cases hexpects with
    | refused hstatus hproxy => exact .refused hstatus hproxy
    | granted proxy message hstatus hclose hresponse hproxy hfree hcurrent hcallbacks =>
      exact .granted proxy message hstatus hclose hresponse hproxy (hid.trans hfree) hcurrent
        hcallbacks
    | dispatched hsame hsameGeneration hproxy hresponse hclose =>
      exact .dispatched (hsame.trans hid.symm) (hsameGeneration.trans hgeneration.symm)
        (hid ▸ hproxy) hresponse hclose
  · intro id generation proxy hcurrent
    obtain ⟨other, found, hcallbacks, hfound, hholds⟩ := h.holder id generation proxy hcurrent
    obtain ⟨found', hfound', hid, hgeneration⟩ := hhandle other found hfound
    refine ⟨other, found', hcallbacks, hfound', ?_⟩
    rw [hid, hgeneration]
    exact hholds
  · intro hrefused id generation proxy other found hcurrent hcallbacks hfound hid hgeneration
    have hbefore := h.owned (hu.refused hrefused) id generation proxy other
    rw [hu.queue]
    rcases set_cases hu.set hfound with ⟨rfl, rfl⟩ | ⟨-, hfound⟩
    · obtain ⟨_, before, hholder, hlookup, -⟩ := h.holder id generation proxy hcurrent
      cases hcallbacks.symm.trans hholder
      rw [hu.lookup before hlookup] at hlookup
      rcases hbefore reactor hcurrent hcallbacks hlookup (hu.proxyId.symm.trans hid)
        (hu.generation.symm.trans hgeneration) with hrequested | ⟨item, hitem, htask⟩
      · by_cases hrequested' : reactor'.detachRequested = true
        · right
          rcases hu.requested hrequested' with hwas | hover | hsubmitted
          · cases hrequested.symm.trans hwas
          · rw [← hu.proxyId, ← hu.generation, hid, hgeneration] at hover
            exact absurd hcallbacks (hover proxy hcurrent)
          · obtain ⟨item, hitem, htask⟩ := hsubmitted hrefused
            rw [← hu.proxyId, ← hu.generation, hid, hgeneration] at htask
            exact ⟨item, List.mem_append_right _ hitem, htask⟩
        · exact .inl (Bool.eq_false_of_not_eq_true hrequested')
      · exact .inr ⟨item, List.mem_append_left _ hitem, htask⟩
    · rcases hbefore found hcurrent hcallbacks hfound hid hgeneration with
        hrequested | ⟨item, hitem, htask⟩
      · exact .inl hrequested
      · exact .inr ⟨item, List.mem_append_left _ hitem, htask⟩

theorem lookup_eq (hreactor : system.reactors[stream]? = some reactor) (found : Reactor F)
    (hfound : system.reactors[stream]? = some found) : found = reactor :=
  Option.some.inj (hfound.symm.trans hreactor)

section

variable (h : system.Inv) (hreactor : system.reactors[stream]? = some reactor)
  (hproxy : reactor'.proxyId = reactor.proxyId) (hgeneration : reactor'.generation = reactor.generation)
  (hrequested : reactor'.detachRequested = reactor.detachRequested)
  (hdestroyed : reactor'.destroyed = true →
    reactor.destroyed = true ∨ reactor'.proxyId = [] ∨ reactor'.detachRequested = true)

include h hreactor hproxy hgeneration hrequested hdestroyed

/-- A reactor with the same handle that has asked for its detach no more than before. -/
theorem Inv.kept : reactor'.Handled := by
  have hhandled := h.handled stream reactor hreactor
  refine ⟨fun hfree => ?_, fun htrue => ?_⟩
  · rw [hgeneration, hrequested]
    exact hhandled.free (hproxy.symm.trans hfree)
  · rcases hdestroyed htrue with hbefore | hafter
    · rw [hproxy, hrequested]
      exact hhandled.ended hbefore
    · exact hafter

theorem Inv.still (hgated : reactor'.Gated)
    (hcredit : reactor'.credit + system.executor.queue.countP (ExecutorItem.consumes stream) +
      system.worker.countP (WorkerCall.delivers stream) ≤ 1) :
    (system.setReactor stream (reactor', system.executor)).Inv := by
  refine h.updates ⟨lookup_eq hreactor, getElem?_setReactor system hreactor (reactor', system.executor),
    (List.append_nil _).symm, id, hproxy, hgeneration, hgated,
    h.kept hreactor hproxy hgeneration hrequested hdestroyed, ?_, nofun,
    fun htrue => .inl (hrequested.symm.trans htrue)⟩
  rw [List.append_nil]
  exact hcredit

end

theorem submitCleanup_queue (executor : BoundedExecutor (HalTask F)) (task : HalTask F) :
    ∃ items, (executor.submitCleanup task).queue = executor.queue ++ items ∧
      ((executor.submitCleanup task).refused = [] → executor.refused = [] ∧ items = [⟨task, true⟩]) ∧
      ∀ item ∈ items, item = ⟨task, true⟩ := by
  rcases executor.submitCleanup_cases task with haccepted | ⟨-, hrefused⟩
  · rw [haccepted]
    exact ⟨[⟨task, true⟩], rfl, fun hempty => ⟨hempty, rfl⟩, fun item => List.mem_singleton.mp⟩
  · rw [hrefused]
    exact ⟨[], (List.append_nil _).symm, fun hempty => absurd hempty (by simp), nofun⟩

/-- A detach of the reactor's handle consumes no request of any stream. -/
theorem countP_detach (stream : ℕ) {id : HalName}
    {generation : ℕ} (h : ∀ item ∈ items, item = ⟨.detach id generation, true⟩) :
    items.countP (ExecutorItem.consumes stream) = 0 := by
  rw [countP_consumes_eq_zero]
  intro item hitem _ _ _ htask
  rw [h item hitem] at htask
  cases htask

section

variable (h : system.Inv) (hreactor : system.reactors[stream]? = some reactor)

include h hreactor

theorem Inv.detaching (hproxy : reactor.proxyId ≠ []) (hsame : reactor'.proxyId = reactor.proxyId)
    (hgeneration : reactor'.generation = reactor.generation) (hrequested : reactor'.detachRequested = true)
    (hgated : reactor'.Gated) (hle : reactor'.credit ≤ reactor.credit) :
    (system.setReactor stream
      (reactor', system.executor.submitCleanup (.detach reactor.proxyId reactor.generation))).Inv := by
  have hcredit := h.credit stream reactor hreactor
  obtain ⟨items, hqueue, hrefused, hitems⟩ :=
    submitCleanup_queue system.executor (.detach reactor.proxyId reactor.generation)
  refine h.updates ⟨lookup_eq hreactor, getElem?_setReactor system hreactor (reactor', _), hqueue,
    fun hempty => (hrefused hempty).1, hsame, hgeneration, hgated,
    ⟨fun hfree => absurd (hsame.symm.trans hfree) hproxy, fun _ => .inr hrequested⟩, ?_, ?_,
    fun _ => .inr (.inr fun hempty => ?_)⟩
  · rw [List.countP_append, countP_detach stream hitems]
    dsimp only
    omega
  · intro item hitem other id generation request htask
    rw [hitems item hitem] at htask
    cases htask
  · rw [(hrefused hempty).2]
    exact ⟨_, List.mem_singleton_self _, rfl⟩

theorem Inv.over (hproxy : reactor.proxyId ≠ []) (hsame : reactor'.proxyId = reactor.proxyId)
    (hgeneration : reactor'.generation = reactor.generation) (hrequested : reactor'.detachRequested = true)
    (hgated : reactor'.Gated)
    (hcredit : reactor'.credit + system.executor.queue.countP (ExecutorItem.consumes stream) +
      system.worker.countP (WorkerCall.delivers stream) ≤ 1)
    (hover : ∀ proxy, system.registry.Current reactor.proxyId reactor.generation proxy →
      proxy.callbacks ≠ some stream) :
    (system.setReactor stream (reactor', system.executor)).Inv := by
  refine h.updates ⟨lookup_eq hreactor, getElem?_setReactor system hreactor (reactor', system.executor),
    (List.append_nil _).symm, id, hsame, hgeneration, hgated,
    ⟨fun hfree => absurd (hsame.symm.trans hfree) hproxy, fun _ => .inr hrequested⟩, ?_, nofun,
    fun _ => .inr (.inl hover)⟩
  rw [List.append_nil]
  exact hcredit

theorem Inv.steady {reactor' : Reactor F} (hsteady : reactor.Steady reactor')
    (hle : reactor'.credit ≤ reactor.credit) : (system.setReactor stream (reactor', system.executor)).Inv := by
  have hcredit := h.credit stream reactor hreactor
  have hgated := hsteady.gated (h.fenced.gated stream reactor hreactor)
  refine h.still hreactor hsteady.proxyId hsteady.generation hsteady.detachRequested ?_ hgated ?_
  · exact fun hdestroyed => .inl (hsteady.destroyed ▸ hdestroyed)
  · omega

theorem Inv.acts {ends : Prop} (hacts : reactor.Acts stream ends system.executor updated) :
    (system.setReactor stream updated).Inv := by
  have hgated := hacts.gated (h.fenced.gated stream reactor hreactor)
  have hcredit := h.credit stream reactor hreactor
  cases hacts with
  | steady reactor' hsteady hle => exact h.steady hreactor hsteady hle
  | detach reactor' _ hrequested hproxy hsteady hle =>
    exact h.detaching hreactor hproxy hsteady.proxyId hsteady.generation hsteady.detachRequested hgated hle
  | consume reactor' executor' request hsteady hle hsubmit =>
    obtain ⟨-, -, rfl⟩ := BoundedExecutor.submitImpl_some hsubmit
    refine h.updates ⟨lookup_eq hreactor, getElem?_setReactor system hreactor (reactor', _), rfl, id,
      hsteady.proxyId, hsteady.generation, hgated, h.kept hreactor hsteady.proxyId hsteady.generation
      hsteady.detachRequested fun hdestroyed => .inl (hsteady.destroyed ▸ hdestroyed), ?_, ?_, ?_⟩
    · rw [List.countP_append, List.countP_singleton, ExecutorItem.consumes, HalTask.consumes,
        decide_eq_true rfl]
      simp only [if_true]
      omega
    · intro item hitem other id generation message htask
      rw [List.mem_singleton.mp hitem] at htask
      cases htask
      exact ⟨rfl, rfl, rfl⟩
    · exact fun hrequested => .inl (hsteady.detachRequested ▸ hrequested)

end

theorem Inv.opened (h : system.Inv) (hfresh : reactor.Fresh) :
    ({ system with reactors := system.reactors ++ [reactor] } : RpcSystem F).Inv := by
  have hnone : system.reactors[system.reactors.length]? = none := List.getElem?_eq_none (Nat.le_refl _)
  -- nothing refers to a stream that does not exist yet
  have hqueue : system.executor.queue.countP (ExecutorItem.consumes system.reactors.length) = 0 := by
    rw [countP_consumes_eq_zero]
    intro item hitem id generation request htask
    obtain ⟨other, hother, -⟩ := h.queued item hitem _ id generation request htask
    cases hnone.symm.trans hother
  have hworker : system.worker.countP (WorkerCall.delivers system.reactors.length) = 0 := by
    rw [List.countP_eq_zero]
    intro call hcall hdelivers
    cases call with
    | deliver other result =>
      obtain rfl := of_decide_eq_true hdelivers
      obtain ⟨-, found, hfound, -⟩ := h.delivering _ result hcall
      cases hnone.symm.trans hfound
    | callback call => cases hdelivers
  have hupdates : system.Updates system.reactors.length reactor reactor (system.reactors ++ [reactor])
      system.executor [] := by
    refine ⟨fun found hfound => absurd (hnone.symm.trans hfound) nofun, fun other => ?_,
      (List.append_nil _).symm, id, rfl, rfl, hfresh.gated,
      ⟨fun _ => ⟨hfresh.generation, hfresh.detachRequested⟩, fun _ => .inl hfresh.proxyId⟩, ?_, nofun, .inl⟩
    · rw [List.getElem?_append]
      rcases Nat.lt_trichotomy other system.reactors.length with hlt | heq | hgt
      · rw [if_pos hlt, if_neg hlt.ne]
      · simp [heq]
      · rw [if_neg hgt.not_gt, if_neg hgt.ne', List.getElem?_eq_none hgt.le]
        exact List.getElem?_eq_none (Nat.succ_le_of_lt (Nat.sub_pos_of_lt hgt))
    · rw [List.append_nil, hqueue, hworker]
      exact hfresh.credit
  exact h.updates hupdates

theorem Inv.submitted (h : system.Inv) {task : HalTask F}
    (htask : task = .other ∨ ∃ now, task = .sample now)
    (hsubmit : system.executor.submit task = some executor') :
    ({ system with executor := executor' } : RpcSystem F).Inv := by
  obtain ⟨-, -, rfl⟩ := BoundedExecutor.submitImpl_some hsubmit
  have hconsumes : ∀ stream, (⟨task, false⟩ : ExecutorItem (HalTask F)).consumes stream = false := by
    intro stream
    rcases htask with rfl | ⟨now, rfl⟩ <;> rfl
  refine ⟨h.fenced.quiet (.refl _) rfl h.fenced.gated, h.retained, h.handled, ?_, ?_,
    h.delivering, h.timeouts, h.holder, ?_⟩
  · intro stream reactor hreactor
    rw [List.countP_append, List.countP_singleton, hconsumes]
    exact h.credit stream reactor hreactor
  · intro item hitem stream id generation request heq
    rcases List.mem_append.mp hitem with hitem | hitem
    · exact h.queued item hitem stream id generation request heq
    · rw [List.mem_singleton.mp hitem] at heq
      rcases htask with rfl | ⟨now, rfl⟩ <;> cases heq
  · intro hrefused id generation proxy stream reactor hcurrent hcallbacks hreactor hid hgeneration
    rcases h.owned hrefused id generation proxy stream reactor hcurrent hcallbacks hreactor hid
      hgeneration with hrequested | ⟨item, hitem, heq⟩
    · exact .inl hrequested
    · exact .inr ⟨item, List.mem_append_left _ hitem, heq⟩

end RpcSystem

end LinuxcncCtrl
