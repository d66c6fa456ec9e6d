import LinuxcncCtrl.Proofs.RemoteComponent
import LinuxcncCtrl.Sanity.RemoteFencing

/-! Attachment generations fence stale streams, for tasks that the worker takes in any order. -/

namespace LinuxcncCtrl

open Lib

variable {F : Type}

/-- The proxy and the generation a task works for; a first message has none. -/
def HalTask.handle : HalTask F → Option (HalName × ℕ)
  | .consume _ proxyId generation _ => if proxyId = [] then none else some (proxyId, generation)
  | .detach proxyId generation => some (proxyId, generation)
  | .sample _ => none
  | .other => none

/-- The attachment that a result which cannot be delivered gives up. -/
def WorkerCall.handle : WorkerCall F → Option (HalName × ℕ)
  | .deliver _ result =>
    if result.proxyId = [] then none else some (result.proxyId, result.generation)
  | .callback _ => none

namespace RpcSystem

variable {config : RegistryConfig} {system system' : RpcSystem F} {id : HalName} {generation : ℕ}

/-- A task whose handle is not the current attachment leaves the registry as it is. -/
theorem runTask_stale [BEq F] {inputs : RegistryInputs F} {task : HalTask F}
    (hhandle : task.handle = some (id, generation))
    (hstale : ∀ proxy, ¬ system.registry.Current id generation proxy) :
    (system.runTask config inputs task).registry = system.registry := by
  cases task with
  | consume stream proxyId taskGeneration request =>
    obtain ⟨hlater, ⟨⟩⟩ := Option.ite_none_left_eq_some.mp hhandle
    exact Registry.consume_stale hlater hstale
  | detach proxyId taskGeneration =>
    cases hhandle
    exact Registry.detach_stale hstale
  | sample now => cases hhandle
  | other => cases hhandle

theorem Called.registry_eq {call : WorkerCall F} (hcalled : system.Called call system')
    (hstale : ∀ id generation, call.handle = some (id, generation) →
      ∀ proxy, ¬ system.registry.Current id generation proxy) : system'.registry = system.registry := by
  cases hcalled with
  | undelivered result _ =>
    split_ifs with hid
    · rfl
    · exact Registry.detach_stale (hstale _ _ (if_neg hid))
  | _ => rfl

/-- The callbacks of a proxy reach the stream that was given the attachment it is in. -/
theorem Fenced.callbacks_iff (h : system.Fenced) {proxy : Proxy F ℕ}
    (hlookup : system.registry.proxies.lookup id = some proxy) (stream : ℕ) :
    proxy.callbacks = some stream ↔ system.AttachedTo stream proxy := by
  obtain ⟨hheld, hfree⟩ := h.holder id proxy hlookup
  constructor
  · intro hstream
    have hattached : proxy.attached = true := by
      by_contra hfalse
      rw [hfree (Bool.eq_false_of_not_eq_true hfalse)] at hstream
      cases hstream
    obtain ⟨holder, hholder, hgrant⟩ := hheld hattached
    cases hholder.symm.trans hstream
    exact hgrant
  · intro hgrant
    obtain ⟨holder, hholder, hheldGrant⟩ := hheld hgrant.1
    rw [hholder, h.attachedTo_unique hheldGrant hgrant]

/-- Attachment generations fence stale streams. In every state that the streams and the worker reach,
with tasks taken in any order: a task or an undelivered result whose handle is not the current
attachment leaves the whole registry as it is, and so does every callback; the attachments given to
streams have, for each proxy, increasing generations; and a retained proxy that is attached is
attached to exactly one stream, the one its callbacks reach. -/
theorem attachmentGenerations_fence [BEq F] {capacity cleanupReserve : ℕ}
    {admission : AdmissionCounter} {slab : HalAllocationSlab} {actions : List (RpcAction F)}
    (hrun : Run (RpcSystem.step config)
      { registry := { admission, slab }, executor := { capacity, cleanupReserve } } actions system) :
    (∀ index inputs item id generation system', system.executor.queue[index]? = some item →
      item.task.handle = some (id, generation) →
      (∀ proxy, ¬ system.registry.Current id generation proxy) →
      system.step config (.take index inputs) = some system' →
      system'.registry = system.registry) ∧
    (∀ stream result rest id generation system', system.worker = .deliver stream result :: rest →
      (WorkerCall.deliver stream result).handle = some (id, generation) →
      (∀ proxy, ¬ system.registry.Current id generation proxy) →
      system.step config .call = some system' → system'.registry = system.registry) ∧
    (∀ callback rest system', system.worker = .callback callback :: rest →
      system.step config .call = some system' → system'.registry = system.registry) ∧
    (system.grants.Pairwise fun first second =>
      first.incarnation = second.incarnation → first.generation < second.generation) ∧
    (∀ id proxy, system.registry.proxies.lookup id = some proxy →
      (proxy.attached = true → ∃! stream, system.AttachedTo stream proxy) ∧
      ∀ stream, proxy.callbacks = some stream ↔ system.AttachedTo stream proxy) := by
  have hfenced := (fenced_empty capacity cleanupReserve admission slab).run hrun
  refine ⟨?_, ?_, ?_, hfenced.increasing, fun id proxy hlookup =>
    ⟨fun hattached => ?_, hfenced.callbacks_iff hlookup⟩⟩
  · intro index inputs item id generation system' hitem hhandle hstale hstep
    obtain ⟨-, hmap⟩ := Option.ite_none_left_eq_some.mp hstep
    obtain ⟨⟨task, executor'⟩, htake, rfl⟩ := Option.map_eq_some_iff.mp hmap
    obtain ⟨taken, htaken, rfl, -⟩ := BoundedExecutor.take_some htake
    cases hitem.symm.trans htaken
    exact runTask_stale hhandle hstale
  · intro stream result rest id generation system' hworker hhandle hstale hstep
    dsimp only [RpcSystem.step] at hstep
    rw [hworker] at hstep
    cases hstep
    refine (runCall_called _ _).registry_eq fun id' generation' hhandle' => ?_
    cases hhandle.symm.trans hhandle'
    exact hstale
  · intro callback rest system' hworker hstep
    dsimp only [RpcSystem.step] at hstep
    rw [hworker] at hstep
    cases hstep
    exact (runCall_called _ _).registry_eq nofun
  · obtain ⟨stream, -, hgrant⟩ := (hfenced.holder id proxy hlookup).1 hattached
    exact ⟨stream, hgrant, fun other hother => hfenced.attachedTo_unique hother hgrant⟩

/-! Stream 0 is cancelled with a heartbeat in the queue; its result is not delivered, stream 1 attaches
as the second generation, and the detach of stream 0 is still to come. -/

def laterInputs : RegistryInputs ℤ := { Registry.sampleInputs 0 with proxyId := ['q'] }

def overtakenActions : List (RpcAction ℤ) :=
  [.openStream true true, .readDone 0 (some (.create Registry.lampCreate)),
    .take 0 (Registry.sampleInputs 0), .call, .writeDone 0 true, .readDone 0 (some (.heartbeat 1)),
    .cancel 0, .openStream true true, .readDone 1 (some (.attach ⟨['p'], ['l'], [1]⟩)),
    .take 0 laterInputs, .call, .take 1 laterInputs, .call]

def overtakenInitial : RpcSystem ℤ :=
  { registry := { admission := { capacity := 1 }, slab := .create 8 }
    executor := { capacity := 128, cleanupReserve := 2 } }

def overtaken : RpcSystem ℤ :=
  (exec (RpcSystem.step Registry.sampleConfig) overtakenInitial overtakenActions).getD
    overtakenInitial

theorem overtaken_run :
    Run (RpcSystem.step Registry.sampleConfig) overtakenInitial overtakenActions overtaken :=
  .of_exec rfl

theorem attachmentGenerations_fence_overtaken : overtaken.grants = [⟨0, ['p'], 0, 1⟩, ⟨1, ['p'], 0, 2⟩] ∧
      (overtaken.step Registry.sampleConfig (.take 0 laterInputs)).isSome = true ∧
      ∀ system', overtaken.step Registry.sampleConfig (.take 0 laterInputs) = some system' →
        system'.registry = overtaken.registry := by
  refine ⟨rfl, rfl, fun system' hstep => ?_⟩
  refine (attachmentGenerations_fence overtaken_run).1 0 laterInputs ⟨.detach ['p'] 1, true⟩ ['p'] 1
    system' rfl rfl ?_ hstep
  rintro proxy ⟨hlookup, -, hgeneration⟩
  have hsecond : (overtaken.registry.proxies.lookup ['p']).map Proxy.generation = some 2 := rfl
  rw [hlookup, Option.map_some, hgeneration] at hsecond
  cases hsecond

end RpcSystem

end LinuxcncCtrl
