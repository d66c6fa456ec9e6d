import LinuxcncCtrl.Proofs.RemoteOrphans
import LinuxcncCtrl.Sanity.RemoteClient

/-! The delta stream of a remote component: what the client has put together from the messages of its
stream is what the registry has recorded, and responses keep their place among the deltas. -/

namespace LinuxcncCtrl

open Lib

variable {F : Type}

namespace RpcSystem

variable {config : RegistryConfig} {system : RpcSystem F} {stream : ℕ} {reactor : Reactor F}

def Live (system : RpcSystem F) (stream : ℕ) : Prop :=
  ∃ reactor, system.reactors[stream]? = some reactor ∧ reactor.Live

/-- The values of a client that has received all that was sent on its stream. -/
def sent (system : RpcSystem F) (stream : ℕ) : ClientValues F :=
  clientValues ((system.reactors[stream]?.map fun reactor => reactor.flow.sent).getD [])

/-- With what the running task has still to hand over. -/
def client (system : RpcSystem F) (stream : ℕ) : ClientValues F :=
  handed system.worker stream (system.sent stream)

structure Streaming (system : RpcSystem F) : Prop where
  inv : system.Inv
  ordered : ∀ (stream : ℕ) (reactor : Reactor F), system.reactors[stream]? = some reactor →
    reactor.flow.Ordered
  proper : ∀ call ∈ system.worker, call.Proper
  tracked : system.registry.Tracked system.Live system.client

section

variable {updated : Reactor F × BoundedExecutor (HalTask F)}
  (hreactor : system.reactors[stream]? = some reactor)

include hreactor

theorem ordered_setReactor (h : system.Streaming) (hordered : updated.1.flow.Ordered) (other : ℕ)
    (found : Reactor F)
    (hfound : (system.setReactor stream updated).reactors[other]? = some found) : found.flow.Ordered := by
  rw [getElem?_setReactor system hreactor updated] at hfound
  split_ifs at hfound
  · cases hfound
    exact hordered
  · exact h.ordered other found hfound

/-- Another stream is as live as before and was sent the same. -/
theorem sent_setReactor {other : ℕ} (hother : other ≠ stream) :
    ((system.setReactor stream updated).Live other → system.Live other) ∧
      (system.setReactor stream updated).sent other = system.sent other := by
  have hget := getElem?_setReactor system hreactor updated other
  rw [if_neg hother] at hget
  unfold Live sent
  rw [hget]
  exact ⟨id, rfl⟩

theorem live_setReactor (hlive : (system.setReactor stream updated).Live stream) :
    updated.1.Live ∧ (system.setReactor stream updated).sent stream = clientValues updated.1.flow.sent := by
  have hget := getElem?_setReactor system hreactor updated stream
  rw [if_pos rfl] at hget
  obtain ⟨found, hfound, hlive⟩ := hlive
  cases hget.symm.trans hfound
  refine ⟨hlive, ?_⟩
  unfold sent
  rw [hget]
  rfl

theorem sent_eq : system.sent stream = clientValues reactor.flow.sent := by
  unfold sent
  rw [hreactor]
  rfl

theorem Streaming.keeps (h : system.Streaming) (hkeeps : reactor.flow.Keeps updated.1.flow)
    (hinv : (system.setReactor stream updated).Inv) :
    (system.setReactor stream updated).Streaming := by
  refine ⟨hinv, ordered_setReactor hreactor h ((h.ordered stream reactor hreactor).keeps hkeeps),
    h.proper, h.tracked.congr fun _ _ other _ _ _ hlive => ?_⟩
  unfold client
  by_cases hother : other = stream
  · subst hother
    obtain ⟨hlive', hsent⟩ := live_setReactor hreactor hlive
    obtain ⟨hbefore, hsame⟩ := hkeeps.sent hlive'
    rw [hsent, hsame, ← sent_eq hreactor]
    exact ⟨⟨reactor, hreactor, hbefore⟩, rfl⟩
  · obtain ⟨hbefore, hsent⟩ := sent_setReactor hreactor hother
    rw [hsent]
    exact ⟨hbefore hlive, rfl⟩

end

theorem Streaming.opened (h : system.Streaming) (hfresh : reactor.Fresh)
    (hinv : ({ system with reactors := system.reactors ++ [reactor] } : RpcSystem F).Inv) :
    ({ system with reactors := system.reactors ++ [reactor] } : RpcSystem F).Streaming := by
  refine ⟨hinv, fun other found hfound => ?_, h.proper, h.tracked.congr ?_⟩
  · rcases Nat.lt_or_ge other system.reactors.length with hlt | hge
    · rw [List.getElem?_append_left hlt] at hfound
      exact h.ordered other found hfound
    · rw [List.getElem?_append_right hge] at hfound
      rw [List.mem_singleton.mp (List.mem_of_getElem? hfound)]
      exact hfresh.ordered
  · intro id proxy other hlookup hattached hstream hlive
    obtain ⟨holder, found, hholder, hfound, -⟩ :=
      h.inv.holder id proxy.generation proxy ⟨hlookup, hattached, rfl⟩
    cases hholder.symm.trans hstream
    have hlt := (List.getElem?_eq_some_iff.mp hfound).1
    unfold Live client sent at *
    rw [List.getElem?_append_left hlt] at hlive ⊢
    exact ⟨hlive, rfl⟩

theorem handed_deliver (stream other : ℕ) (result : RemoteComponentResult F)
    (values : ClientValues F) :
    handed [.deliver stream result] other values =
      if stream = other then result.response.elim values (HalComponentServerMessage.receive values)
      else values := by
  rw [handed_cons, WorkerCall.message]
  split_ifs
  · rfl
  · rfl

/-- A stream that has no handle holds no attachment while the worker is idle. -/
theorem Inv.unattached (h : system.Inv) (hworker : system.worker = [])
    (hreactor : system.reactors[stream]? = some reactor) (hfree : reactor.proxyId = [])
    (id : HalName) (proxy : Proxy F ℕ) (hlookup : system.registry.proxies.lookup id = some proxy)
    (hattached : proxy.attached = true) : proxy.callbacks ≠ some stream := by
  intro hstream
  obtain ⟨holder, found, hholder, hfound, hholds⟩ :=
    h.holder id proxy.generation proxy ⟨hlookup, hattached, rfl⟩
  cases hholder.symm.trans hstream
  cases hfound.symm.trans hreactor
  rcases hholds with ⟨hid, -⟩ | ⟨-, result, hmem, -⟩
  · exact (h.retained id proxy hlookup).1 (hid.symm.trans hfree)
  · rw [hworker] at hmem
    cases hmem

variable {inputs : RegistryInputs F}

/-- The result of a request and the clients that will have received it. -/
theorem Streaming.consumed (h : system.Streaming) (hworker : system.worker = [])
    (hreactor : system.reactors[stream]? = some reactor) (request : HalComponentClientMessage F)
    {consumed : Registry F ℕ × RemoteComponentResult F}
    (hconsumed : system.registry.Consumed config inputs reactor.proxyId reactor.generation stream
      request consumed) :
    consumed.1.Tracked system.Live (fun other =>
      handed [.deliver stream consumed.2] other (system.sent other)) ∧
    (WorkerCall.deliver stream consumed.2 : WorkerCall F).Proper := by
  have hclient : system.client = system.sent := by
    funext other
    unfold client
    rw [hworker]
    rfl
  have htracked := h.tracked
  rw [hclient] at htracked
  have hfree := h.inv.unattached hworker hreactor
  -- the client of the stream starts from the retained values
  have hgranted : ∀ (result : RemoteComponentResult F) (message : HalComponentAttached F),
      result.response = some (.attached message) →
      (fun other => handed [.deliver stream result] other (system.sent other)) =
        Function.update system.sent stream
          (HalComponentServerMessage.receive (system.sent stream) (.attached message)) := by
    intro result message hresponse
    funext other
    rw [handed_deliver]
    split_ifs with hother
    · rw [← hother, Function.update_self, hresponse]
      rfl
    · rw [Function.update_of_ne (Ne.symm hother)]
  cases hconsumed with
  | refused slab admission status hstatus =>
    refine ⟨?_, nofun⟩
    refine Registry.Tracked.congr ⟨htracked.layout, htracked.tracks⟩ fun _ _ other _ _ _ hlive => ?_
    rw [handed_deliver]
    split_ifs
    · exact ⟨hlive, rfl⟩
    · exact ⟨hlive, rfl⟩
  | created create definitions component namePrefix slab admission hfirst hschema hbuild _ =>
    refine ⟨?_, fun response hresponse => Option.some.inj hresponse ▸ rfl⟩
    rw [hgranted _ _ rfl]
    have hretained : ({ system.registry with
        slab
        admission
        retainedItemCount := system.registry.retainedItemCount + (definitions.length + 1)
        created := system.registry.created + 1 } : Registry F ℕ).Tracked system.Live system.sent :=
      ⟨htracked.layout, htracked.tracks⟩
    exact hretained.grant config inputs.calls (Proxy.layout_newProxy hschema hbuild stream) rfl
      (hfree hfirst) true
  | attached proxy id hfirst hlookup _ =>
    refine ⟨?_, fun response hresponse => Option.some.inj hresponse ▸ rfl⟩
    rw [hgranted _ _ rfl]
    have hlayout := (htracked.layout id proxy hlookup).framed
      (Proxy.framed_takeOver proxy inputs.now stream)
    exact htracked.grant config inputs.calls hlayout rfl (hfree hfirst) false
  | dispatched proxy hlater hcurrent =>
    have hdispatched := Registry.dispatched_dispatch system.registry proxy inputs.now request
    have hplain := hdispatched.replies.plain
    refine ⟨?_, fun response hresponse => ((hplain response hresponse).receive fun _ => none).1⟩
    have hsilent := htracked.silent
      (Registry.quiet_dispatched h.inv.fenced.keyed hcurrent.1 hdispatched)
      (Registry.silent_dispatched h.inv.fenced.keyed hcurrent.1 hdispatched)
    refine hsilent.congr fun _ _ other _ _ _ hlive => ⟨hlive, ?_⟩
    rw [handed_deliver]
    split_ifs
    · cases hresponse : (system.registry.dispatch proxy inputs.now request).2.response with
      | none => rfl
      | some response => exact ((hplain response hresponse).receive _).2
    · rfl

theorem Streaming.took [BEq F] (h : system.Streaming) (hworker : system.worker = []) {index : ℕ}
    {task : HalTask F} {executor' : BoundedExecutor (HalTask F)}
    (htake : system.executor.take index = some (task, executor'))
    (hinv : ({ system with executor := executor' }.runTask config inputs task).Inv) :
    ({ system with executor := executor' }.runTask config inputs task).Streaming := by
  obtain ⟨item, hitem, rfl, rfl⟩ := BoundedExecutor.take_some htake
  have hclient : system.client = system.sent := by
    funext other
    unfold client
    rw [hworker]
    rfl
  cases htask : item.task with
  | consume stream proxyId generation request =>
    rw [htask] at hinv
    obtain ⟨reactor, hreactor, rfl, rfl⟩ := h.inv.queued item (List.mem_of_getElem? hitem) stream
      proxyId generation request htask
    have hconsumed : system.registry.Consumed config inputs reactor.proxyId reactor.generation stream
        request (system.registry.consume config inputs reactor.proxyId reactor.generation stream
          request) := Registry.consume_consumed
    obtain ⟨htracked, hproper⟩ := h.consumed hworker hreactor request hconsumed
    refine ⟨hinv, h.ordered, fun call hcall => ?_, htracked⟩
    rw [List.mem_singleton.mp hcall]
    exact hproper
  | detach id generation =>
    rw [htask] at hinv
    exact ⟨hinv, h.ordered, h.proper, h.tracked.silent
      (Registry.quiet_detach h.inv.fenced.keyed id generation)
      (Registry.silent_detach h.inv.fenced.keyed id generation)⟩
  | sample now =>
    rw [htask] at hinv
    obtain ⟨htracked, hproper⟩ := Registry.Tracked.sampleIds (hclient ▸ h.tracked) config inputs.calls
      now system.registry.proxies.keys h.inv.fenced.keyed h.inv.separate
    refine ⟨hinv, h.ordered, fun call hcall => ?_, htracked⟩
    obtain ⟨callback, hcallback, rfl⟩ := List.mem_map.mp hcall
    exact hproper callback hcallback
  | other =>
    rw [htask] at hinv
    exact { h with inv := hinv }

section Called

variable {call : WorkerCall F} {rest : List (WorkerCall F)}
  {updated : Reactor F × BoundedExecutor (HalTask F)}

section

variable (h : system.Streaming) (hworker : system.worker = call :: rest)
  (hreactor : system.reactors[stream]? = some reactor)
  (hothers : ∀ other, other ≠ stream → call.message other = none)
  (hinv : ({ system with worker := rest }.setReactor stream updated).Inv)

include h hworker hreactor hothers hinv

/-- The reactor of the stream takes the message that the call has for it, if it goes on. -/
theorem Streaming.answered (hordered : updated.1.flow.Ordered)
    (hsent : updated.1.Live → reactor.Live ∧ clientValues updated.1.flow.sent =
      (call.message stream).elim (clientValues reactor.flow.sent)
        (HalComponentServerMessage.receive (clientValues reactor.flow.sent))) :
    ({ system with worker := rest }.setReactor stream updated).Streaming := by
  have hreactor' : ({ system with worker := rest } : RpcSystem F).reactors[stream]? = some reactor :=
    hreactor
  have hall := ordered_setReactor hreactor h hordered
  refine ⟨hinv, hall,
    fun other hother => h.proper other (hworker ▸ List.mem_cons_of_mem _ hother),
    h.tracked.congr fun _ _ other _ _ _ hlive => ?_⟩
  unfold client
  rw [hworker, handed_cons]
  by_cases hother : other = stream
  · subst hother
    obtain ⟨hlive', hupdated⟩ := live_setReactor hreactor' hlive
    obtain ⟨hbefore, hvalues⟩ := hsent hlive'
    rw [hupdated, hvalues, ← sent_eq hreactor]
    exact ⟨⟨reactor, hreactor, hbefore⟩, rfl⟩
  · obtain ⟨hbefore, hsame⟩ := sent_setReactor hreactor' hother
    rw [hothers other hother, Option.elim_none, hsame]
    exact ⟨hbefore hlive, rfl⟩

theorem Streaming.offered {entry : OutboxEntry F} (hmessage : call.message stream = some entry.message)
    (hoffers : reactor.flow.Offers entry updated.1.flow) (hdistinct : entry.message.Distinct)
    (hresponse : entry.resumeRead = !entry.message.isDelta) :
    ({ system with worker := rest }.setReactor stream updated).Streaming := by
  have hordered := h.ordered stream reactor hreactor
  refine h.answered hworker hreactor hothers hinv (hordered.offers hoffers hdistinct hresponse) ?_
  rw [hmessage]
  exact hoffers.clientValues hordered

/-- The call has no message for the stream, or the stream is asked to finish. -/
theorem Streaming.kept (hnone : call.message stream = none ∨ ¬ updated.1.Live)
    (hkeeps : reactor.flow.Keeps updated.1.flow) :
    ({ system with worker := rest }.setReactor stream updated).Streaming := by
  have hordered := (h.ordered stream reactor hreactor).keeps hkeeps
  refine h.answered hworker hreactor hothers hinv hordered fun hlive => ?_
  obtain ⟨hbefore, hsame⟩ := hkeeps.sent hlive
  rw [hnone.resolve_right (not_not_intro hlive), hsame]
  exact ⟨hbefore, rfl⟩

end

/-- A call that has no message for a live stream leaves the worker. -/
theorem Streaming.popped (h : system.Streaming) (hworker : system.worker = call :: rest)
    (hnone : ∀ other, system.Live other → call.message other = none) :
    (∀ call ∈ rest, call.Proper) ∧
      system.registry.Tracked system.Live ({ system with worker := rest } : RpcSystem F).client := by
  refine ⟨fun other hother => h.proper other (hworker ▸ List.mem_cons_of_mem _ hother),
    h.tracked.congr fun _ _ other _ _ _ hlive => ⟨hlive, ?_⟩⟩
  unfold client
  rw [hworker, handed_cons, hnone other hlive]
  rfl

theorem not_live (h : ∀ reactor, system.reactors[stream]? = some reactor → reactor.gate ≠ .opened) :
    ¬ system.Live stream := by
  rintro ⟨reactor, hreactor, hopen, -⟩
  exact h reactor hreactor hopen

theorem Streaming.deliver (h : system.Streaming) {result : RemoteComponentResult F}
    (hworker : system.worker = .deliver stream result :: rest)
    (hreactor : system.reactors[stream]? = some reactor) (hopen : reactor.gate = .opened)
    (hothers : ∀ other, other ≠ stream → (WorkerCall.deliver stream result).message other = none)
    (hinv : ({ system with worker := rest }.setReactor stream
      (reactor.deliver system.executor result)).Inv) :
    ({ system with worker := rest }.setReactor stream (reactor.deliver system.executor result)).Streaming := by
  rcases Reactor.deliver_offers hopen system.executor result with
    ⟨response, hresponse, hoffers⟩ | ⟨hnone, hkeeps⟩
  · have hproper := h.proper _ (hworker ▸ List.mem_cons_self)
    have hplain := hproper response hresponse
    refine h.offered hworker hreactor hothers hinv ((if_pos rfl).trans hresponse) hoffers ?_ ?_
    · cases response with
      | delta generation sequence values => cases hplain
      | attached _ | active _ | updateAck _ _ | heartbeatAck _ | closed _ _ => trivial
    · rw [hplain]
      rfl
  · refine h.kept hworker hreactor hothers hinv ?_ hkeeps
    exact hnone.imp_left fun hresponse => (if_pos rfl).trans hresponse

theorem Streaming.called {system' : RpcSystem F} (h : system.Streaming) (hworker : system.worker = call :: rest)
    (hcalled : ({ system with worker := rest } : RpcSystem F).Called call system') (hinv : system'.Inv) :
    system'.Streaming := by
  cases hcalled with
  | delivered result hreactor hopen =>
    exact h.deliver hworker hreactor hopen (fun other hother => if_neg (Ne.symm hother)) hinv
  | undelivered result hclosed =>
    obtain ⟨hrest, htracked⟩ := h.popped hworker fun other hlive =>
      if_neg (by rintro rfl; exact not_live hclosed hlive)
    split_ifs at hinv ⊢
    · exact ⟨hinv, h.ordered, hrest, htracked⟩
    · exact ⟨hinv, h.ordered, hrest, htracked.silent
        (Registry.quiet_detach h.inv.fenced.keyed _ _)
        (Registry.silent_detach h.inv.fenced.keyed _ _)⟩
  | @offered stream reactor message hreactor hopen =>
    have hmessage : (WorkerCall.callback (.offerDelta stream message)).message stream = some message :=
      if_pos rfl
    have hproper := h.proper _ (hworker ▸ List.mem_cons_self)
    exact h.offered hworker hreactor (fun other hother => if_neg (Ne.symm hother)) hinv hmessage
      (Reactor.offerDelta_offers hopen message) hproper.2 (by rw [hproper.1]; rfl)
  | timedOut generation hreactor =>
    exact h.kept hworker hreactor (fun _ _ => rfl) hinv (.inl rfl)
      (Reactor.heartbeatTimeout_keeps _ generation)
  | dropped callback hclosed =>
    obtain ⟨hrest, htracked⟩ : _ ∧ system.registry.Tracked _ _ := h.popped hworker fun other hlive => by
      cases callback with
      | offerDelta stream message =>
        exact if_neg (by rintro rfl; exact not_live (fun reactor => hclosed _ message reactor rfl) hlive)
      | heartbeatTimeout => rfl
    exact ⟨hinv, h.ordered, hrest, htracked⟩

end Called

theorem Streaming.moved [BEq F] {action : RpcAction F} {system' : RpcSystem F} (h : system.Streaming)
    (hmoved : Moved config system action system') : system'.Streaming := by
  have hinv := h.inv.moved hmoved
  cases hmoved with
  | opened _ reactor hfresh => exact h.opened hfresh hinv
  | acted _ stream reactor updated hreactor _ hkeeps => exact h.keeps hreactor hkeeps hinv
  | gateClosed _ stream reactor hreactor _ =>
    exact h.keeps hreactor (.finished _ _ fun hlive => absurd hlive.1 nofun) hinv
  | ended _ stream reactor hreactor _ _ =>
    exact h.keeps hreactor reactor.flow.keeps_refl hinv
  | endedDetach _ stream reactor _ hreactor _ _ _ _ =>
    exact h.keeps hreactor reactor.flow.keeps_refl hinv
  | submitted _ task executor' _ _ => exact { h with inv := hinv }
  | took index inputs task executor' hworker _ _ htake => exact h.took hworker htake hinv
  | called call rest hworker => exact h.called hworker (runCall_called _ call) hinv

theorem streaming_empty (capacity cleanupReserve : ℕ) (admission : AdmissionCounter)
    (slab : HalAllocationSlab) :
    ({ registry := { admission, slab }, executor := { capacity, cleanupReserve } } :
      RpcSystem F).Streaming where
  inv := inv_empty capacity cleanupReserve admission slab
  ordered stream reactor hreactor := by cases hreactor
  proper call hcall := by cases hcall
  tracked :=
    { layout := fun _ _ hlookup => absurd hlookup nofun
      tracks := fun _ _ _ hlookup => absurd hlookup nofun }

theorem streaming_run [BEq F] {capacity cleanupReserve : ℕ} {admission : AdmissionCounter}
    {slab : HalAllocationSlab} {actions : List (RpcAction F)}
    (hrun : Run (RpcSystem.step config)
      { registry := { admission, slab }, executor := { capacity, cleanupReserve } } actions system) :
    system.Streaming := by
  induction hrun with
  | nil => exact streaming_empty capacity cleanupReserve admission slab
  | snoc _ hstep ih => exact ih.moved (step_moved ih.inv.fenced.gated hstep)

end RpcSystem

/-- The responses among the messages that are sent are the offered ones. -/
theorem Coalesced.responses {offered sent : List (HalComponentServerMessage F)}
    (h : Coalesced offered sent) :
    sent.filter (fun message => !message.isDelta) =
      offered.filter fun message => !message.isDelta := by
  induction h with
  | nil => rfl
  | message message _ ih => rw [List.filter_append, List.filter_append, ih]
  | merged generation' sequence' values _ ih =>
    have hdelta : ∀ generation sequence (values : List (EncodedValue F)),
        [HalComponentServerMessage.delta generation sequence values].filter
          (fun message => !message.isDelta) = [] := fun _ _ _ => rfl
    rw [List.filter_append, hdelta] at ih ⊢
    rw [List.filter_append, hdelta, List.append_nil, List.append_nil, ← ih, List.append_nil]

namespace RpcSystem

/-- In every run, on every stream. As long as the stream has not been asked to finish and nothing is
being handed to it, queued or written, its client has for every readable item of the attachment the
value that the registry recorded last; all that was offered to the stream was sent in its order or is
queued, with deltas merged only into a delta before them, and every response by itself; and once the
stream has been asked to finish this still holds of what it has written. -/
theorem deltaStream_reconstructs [BEq F] {capacity cleanupReserve : ℕ} {admission : AdmissionCounter}
    {slab : HalAllocationSlab} {actions : List (RpcAction F)}
    (hrun : Run (RpcSystem.step config)
      { registry := { admission, slab }, executor := { capacity, cleanupReserve } } actions system)
    (hreactor : system.reactors[stream]? = some reactor) :
    (reactor.Live → system.handing stream = [] → reactor.outbox = [] →
      reactor.writeFinish.writeInFlight = false →
      ∀ id proxy, system.registry.proxies.lookup id = some proxy → proxy.attached = true →
        proxy.callbacks = some stream → ∀ item ∈ proxy.items, item.serverReadable = true →
        ∃ value, item.previous = some value ∧ clientValues reactor.written item.key = some value) ∧
    (∃ rest, Coalesced (reactor.offered.map OutboxEntry.message) (reactor.written ++ rest) ∧
      (reactor.written ++ rest).filter (fun message => !message.isDelta) =
        (reactor.offered.filter OutboxEntry.resumeRead).map OutboxEntry.message ∧
      (reactor.Live → rest = reactor.outbox.map OutboxEntry.message)) := by
  have hstreaming := streaming_run hrun
  have hordered := hstreaming.ordered stream reactor hreactor
  refine ⟨fun hlive hhanding houtbox _ id proxy hlookup hattached hstream => ?_, ?_⟩
  · have htracks := hstreaming.tracked.tracks id proxy stream hlookup hattached hstream
      ⟨reactor, hreactor, hlive⟩
    have hclient : system.client stream = clientValues reactor.written := by
      unfold client handed
      unfold handing at hhanding
      rw [hhanding, List.foldl_nil, sent_eq hreactor]
      unfold MessageFlow.sent Reactor.flow
      rw [houtbox, List.map_nil, List.append_nil]
    rw [hclient] at htracks
    exact htracks
  · obtain ⟨rest, hcoalesced, hrest⟩ := hordered.coalesced
    refine ⟨rest, hcoalesced, ?_, hrest⟩
    refine hcoalesced.responses.trans ?_
    rw [List.filter_map]
    exact congrArg _ (List.filter_congr fun entry hentry => (hordered.responses entry hentry).symm)


/-! Two samples are taken while the response to the activation is being written; the second delta is
merged into the first. -/

def sensorCreate : HalComponentCreate ℤ :=
  { name := ['s']
    pins :=
      [{ name := ['x'], type := some .s32, direction := some .input },
        { name := ['y'], type := some .s32, direction := some .input }] }

def sensorInputs (x y : Int32) : RegistryInputs ℤ :=
  let inputs := Registry.sampleInputs 0
  { inputs with
    calls :=
      { inputs.calls with
        read := fun name =>
          if name = ['s', '.', 'x'] then .s32 x
          else if name = ['s', '.', 'y'] then .s32 y
          else .bit true }
    proxyId := ['q'] }

def mergedActions : List (RpcAction ℤ) :=
  [.openStream true true, .readDone 0 (some (.create sensorCreate)), .take 0 (sensorInputs 0 0), .call,
    .writeDone 0 true, .readDone 0 (some (.activate 1 [])),
    .take 0 { sensorInputs 0 0 with proxyId := ['r'] }, .call,
    .submitSample 0, .take 0 { sensorInputs 1 0 with proxyId := ['r'] }, .call,
    .submitSample 20000000, .take 0 { sensorInputs 2 5 with proxyId := ['r'] }, .call,
    .writeDone 0 true, .writeDone 0 true]

def merged : RpcSystem ℤ :=
  (exec (RpcSystem.step Registry.sampleConfig) overtakenInitial mergedActions).getD overtakenInitial

theorem merged_run :
    Run (RpcSystem.step Registry.sampleConfig) overtakenInitial mergedActions merged :=
  .of_exec rfl

def mergedReactor : Reactor ℤ := (merged.reactors[0]?).getD {}

def mergedProxy : Option (Proxy ℤ ℕ) := merged.registry.proxies.lookup ['q']

theorem deltaStream_reconstructs_merged :
    mergedReactor.written.length = 3 ∧ mergedReactor.offered.length = 4 ∧
      mergedProxy.map (fun proxy => proxy.items.map ProxyItem.previous) =
        some [some (.s32 2), some (.s32 5), some (.bit true)] ∧
      ∀ proxy ∈ mergedProxy, ∀ item ∈ proxy.items, item.serverReadable = true →
        ∃ value, item.previous = some value ∧
          clientValues mergedReactor.written item.key = some value := by
  refine ⟨rfl, rfl, rfl, fun proxy hproxy => ?_⟩
  have hholder : mergedProxy.map (fun proxy => (proxy.attached, proxy.callbacks)) =
      some (true, some 0) := rfl
  rw [hproxy, Option.map_some] at hholder
  obtain ⟨hattached, hstream⟩ := Prod.mk.inj (Option.some.inj hholder)
  have hreactor : merged.reactors[0]? = some mergedReactor := rfl
  exact (deltaStream_reconstructs merged_run hreactor).1 ⟨rfl, rfl⟩ rfl rfl rfl ['q'] proxy hproxy
    hattached hstream

end RpcSystem

end LinuxcncCtrl
