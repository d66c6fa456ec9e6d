import LinuxcncCtrl.Sanity.RemoteProxy

/-! What one message does to the registry: it is refused, retains a new proxy, gives a detached proxy to the
stream, or goes to the proxy that the stream's handle names. -/

namespace LinuxcncCtrl

variable {F σ : Type}

namespace Registry

section Messages

variable (registry : Registry F σ) (config : RegistryConfig) (inputs : RegistryInputs F)
  (attachedId : HalName) (attachedGeneration : ℕ) (stream : σ)
  (request : HalComponentClientMessage F)

def createdProxy (create : HalComponentCreate F) (component : HalComponent F) (namePrefix : HalName)
    (definitions : List (ItemDefinition F)) : Proxy F σ × HalComponentAttached F :=
  (registry.newProxy config inputs create component namePrefix definitions stream).encodeSnapshot
    config inputs.calls true

def attachedProxy (proxy : Proxy F σ) : Proxy F σ × HalComponentAttached F :=
  (proxy.takeOver inputs.now stream).encodeSnapshot config inputs.calls false

inductive Consumed : Registry F σ × RemoteComponentResult F → Prop
  | refused (slab : HalAllocationSlab) (admission : AdmissionCounter) (status : GrpcStatus) :
      status.code ≠ .ok → Consumed ({ registry with slab, admission }, { status })
  | created (create : HalComponentCreate F) (definitions : List (ItemDefinition F))
      (component : HalComponent F) (namePrefix : HalName) (slab : HalAllocationSlab)
      (admission : AdmissionCounter) :
      attachedId = [] → schemaDefinitions create = .ok definitions →
      registry.buildComponent config inputs.calls create namePrefix definitions =
        .ok (component, slab) →
      registry.admission.acquire = some admission →
      Consumed
        ({ registry with
            slab
            admission
            retainedItemCount := registry.retainedItemCount + (definitions.length + 1)
            created := registry.created + 1 }.setProxy
          (registry.createdProxy config inputs stream create component namePrefix definitions).1,
        { response := some (.attached
            (registry.createdProxy config inputs stream create component namePrefix definitions).2)
          proxyId := inputs.proxyId
          generation := 1 })
  | attached (proxy : Proxy F σ) (id : HalName) :
      attachedId = [] → registry.proxies.lookup id = some proxy → proxy.attached = false →
      Consumed
        (registry.setProxy (attachedProxy config inputs stream proxy).1,
        { response := some (.attached (attachedProxy config inputs stream proxy).2)
          proxyId := proxy.id
          generation := proxy.generation + 1 })
  | dispatched (proxy : Proxy F σ) :
      attachedId ≠ [] → registry.Current attachedId attachedGeneration proxy →
      Consumed (registry.dispatch proxy inputs.now request)

end Messages

variable {registry : Registry F σ} {config : RegistryConfig} {inputs : RegistryInputs F}
  {attachedId : HalName} {attachedGeneration : ℕ} {stream : σ}
  {request : HalComponentClientMessage F} {status : GrpcStatus} {names : List HalName}

theorem lookup_setProxy (registry : Registry F σ) (proxy : Proxy F σ) (id : HalName) :
    (registry.setProxy proxy).proxies.lookup id =
      if id = proxy.id then some proxy else registry.proxies.lookup id := by
  unfold setProxy
  split_ifs with hid
  · rw [hid, AList.lookup_insert]
  · rw [AList.lookup_insert_ne hid]

theorem lookup_erase (registry : Registry F σ) (erased id : HalName) :
    (registry.proxies.erase erased).lookup id =
      if id = erased then none else registry.proxies.lookup id := by
  split_ifs with hid
  · rw [hid, AList.lookup_erase]
  · rw [AList.lookup_erase_ne hid]

theorem checkItems_error {α : Type} {check : List HalName → α → Except GrpcStatus (ItemDefinition F)}
    (hcheck : ∀ names item status, check names item = .error status → status.code ≠ .ok) {items : List α}
    (h : checkItems check names items = .error status) : status.code ≠ .ok := by
  induction items generalizing names with
  | nil => cases h
  | cons item items ih =>
    unfold checkItems at h
    split at h
    next status' hstatus =>
      cases h
      exact hcheck names item _ hstatus
    next definition hdefinition =>
      split at h
      next status' hstatus =>
        cases h
        exact ih hstatus
      next => cases h

theorem itemDefinition_error {schemaError disconnectError : String}
    {name : HalName} {type : Option HalAdapterType} {direction : Option ItemDirection}
    {allowed : ItemDirection → Bool} {disconnectValue : Option (HalScalar F)}
    (h : itemDefinition schemaError disconnectError names name type direction allowed
      disconnectValue = .error status) : status.code ≠ .ok := by
  unfold itemDefinition at h
  split at h
  next =>
    split_ifs at h
    · cases h
      nofun
    · split at h
      next => cases h
      next =>
        split at h <;> cases h
        nofun
  next =>
    cases h
    nofun

theorem schemaDefinitions_error {create : HalComponentCreate F}
    (h : schemaDefinitions create = .error status) : status.code ≠ .ok := by
  unfold schemaDefinitions at h
  split at h
  next status' hpins =>
    cases h
    exact checkItems_error (fun _ _ _ => itemDefinition_error) hpins
  next pins hpins =>
    split at h
    next status' hparameters =>
      cases h
      exact checkItems_error (fun _ _ _ => itemDefinition_error) hparameters
    next => cases h

theorem createFailure_status (failure : CreateFailure) : failure.status.code ≠ .ok := by
  cases failure with
  | hal message code =>
    unfold CreateFailure.status halError
    dsimp only
    split_ifs <;> nofun
  | exception what => nofun
  | unknown => nofun

theorem create_consumed (hfirst : attachedId = []) (create : HalComponentCreate F) :
    registry.Consumed config inputs attachedId attachedGeneration stream request
      (registry.create config inputs stream create) := by
  unfold Registry.create
  dsimp only
  generalize (if create.namePrefix = [] then create.name else create.namePrefix) = namePrefix
  split_ifs
  · exact .refused _ _ _ nofun
  · exact .refused _ _ _ nofun
  · split
    next status hstatus => exact .refused _ _ _ (schemaDefinitions_error hstatus)
    next definitions hdefinitions =>
      split
      next admission hbudget hadmission =>
        split
        next failure slab hbuild => exact .refused _ _ _ (createFailure_status failure)
        next component slab hbuild =>
          exact .created create definitions component namePrefix slab admission hfirst hdefinitions hbuild
            hadmission
      next => exact .refused _ _ _ nofun

theorem attach_consumed (hfirst : attachedId = []) (attach : HalComponentAttach) :
    registry.Consumed config inputs attachedId attachedGeneration stream request
      (registry.attach config inputs stream attach) := by
  unfold Registry.attach
  split
  next => exact .refused _ _ _ nofun
  next proxy hlookup =>
    split_ifs with hname htoken hattached
    · exact .refused _ _ _ nofun
    · exact .refused _ _ _ nofun
    · exact .refused _ _ _ nofun
    · exact .attached proxy attach.proxyId hfirst hlookup (Bool.eq_false_of_not_eq_true hattached)

theorem consume_consumed : registry.Consumed config inputs attachedId attachedGeneration stream request
      (registry.consume config inputs attachedId attachedGeneration stream request) := by
  unfold Registry.consume
  split
  next create hfirst => exact create_consumed (of_decide_eq_true hfirst) create
  next attach hfirst => exact attach_consumed (of_decide_eq_true hfirst) attach
  next => exact .refused _ _ _ nofun
  next => exact .refused _ _ _ nofun
  next => exact .refused _ _ _ nofun
  next hlater _ _ =>
    split
    next => exact .refused _ _ _ nofun
    next proxy hlookup =>
      split_ifs with hstale
      · exact .refused _ _ _ nofun
      · obtain ⟨hattached, hgeneration⟩ := not_or.mp hstale
        refine .dispatched proxy (of_decide_eq_false hlater) ⟨hlookup, ?_, ?_⟩
        · exact Bool.eq_true_of_not_eq_false hattached
        · exact Decidable.of_not_not hgeneration

end Registry

end LinuxcncCtrl
