import LinuxcncCtrl.Sanity.RemoteRegistry

/-! The fail-safe condition in every state of the registry. Each operation keeps it for the proxy it
works on and does not touch the others, whatever the stream, the handle and the message are. -/

namespace LinuxcncCtrl

open Lib

variable {F σ : Type}

namespace Registry

/-- Every proxy is retained under its own id and meets its condition. -/
def Sound (registry : Registry F σ) : Prop :=
  ∀ id proxy, registry.proxies.lookup id = some proxy → proxy.id = id ∧ proxy.Inv

variable {registry : Registry F σ} {proxy : Proxy F σ} {config : RegistryConfig}

section

variable (h : registry.Sound)

include h

theorem Sound.setProxy (hproxy : proxy.Inv) : (registry.setProxy proxy).Sound := by
  intro id other hlookup
  rw [lookup_setProxy] at hlookup
  split_ifs at hlookup with hid
  · cases hlookup
    exact ⟨hid.symm, hproxy⟩
  · exact h id other hlookup

theorem Sound.close (hproxy : proxy.Inv) (generation : ℕ) (mode : Option HalComponentCloseMode) :
    (registry.close proxy generation mode).1.Sound := by
  unfold Registry.close
  split
  next mode _ =>
    cases mode with
    | detach => exact h.setProxy hproxy.detached
    | destroy =>
      intro id other hlookup
      rw [lookup_erase] at hlookup
      split_ifs at hlookup
      exact h id other hlookup
  next => exact h

theorem Sound.dispatch (hproxy : proxy.Inv) (hattached : proxy.attached = true) (now : ℤ)
    (request : HalComponentClientMessage F) : (registry.dispatch proxy now request).1.Sound := by
  cases request with
  | activate generation values => exact h.setProxy (hproxy.activate now values hattached generation)
  | update generation sequence values =>
    exact h.setProxy (hproxy.update now values hattached generation sequence)
  | heartbeat generation => exact h.setProxy (hproxy.heartbeat now generation)
  | close generation mode => exact h.close hproxy generation mode
  | create message => exact h
  | attach message => exact h
  | notSet => exact h

theorem Sound.consume (config : RegistryConfig) (inputs : RegistryInputs F) (attachedId : HalName)
    (attachedGeneration : ℕ) (stream : σ) (request : HalComponentClientMessage F) :
    (registry.consume config inputs attachedId attachedGeneration stream request).1.Sound := by
  generalize hresult :
    registry.consume config inputs attachedId attachedGeneration stream request = consumed
  have hconsumed := hresult ▸ consume_consumed
  cases hconsumed with
  | refused slab admission status _ => exact h
  | created create definitions component namePrefix slab admission _ hschema hbuild _ =>
    refine Sound.setProxy ?_ ((newProxy_inv hschema hbuild stream).encodeSnapshot _ _ _)
    exact h
  | attached proxy id _ hlookup _ =>
    exact h.setProxy (((h id proxy hlookup).2.takeOver _ _).encodeSnapshot _ _ _)
  | dispatched proxy _ hcurrent =>
    obtain ⟨hlookup, hattached, -⟩ := hcurrent
    exact h.dispatch (h _ proxy hlookup).2 hattached _ _

theorem Sound.detach (id : HalName) (generation : ℕ) : (registry.detach id generation).Sound := by
  unfold Registry.detach
  split
  next => exact h
  next proxy hlookup =>
    split_ifs
    · exact h
    · exact h.setProxy (h id proxy hlookup).2.detached

theorem Sound.sampleIds [BEq F] (config : RegistryConfig) (calls : HalCalls F) (now : ℤ) (ids : List HalName) :
    (sampleIds config calls now ids registry).1.Sound := by
  induction ids generalizing registry with
  | nil => exact h
  | cons id ids ih =>
    unfold Registry.sampleIds
    split
    next => exact ih h
    next proxy hlookup => exact ih (h.setProxy ((h id proxy hlookup).2.sample _ _ _))

end

theorem Sound.shutdown (registry : Registry F σ) : registry.shutdown.Sound := by
  intro id proxy hlookup
  simp [Registry.shutdown] at hlookup

theorem Sound.step [BEq F] {registry' : Registry F σ} {action : RegistryAction F σ} (h : registry.Sound)
    (hstep : registry.step config action = some registry') : registry'.Sound := by
  cases action with
  | consume inputs attachedId attachedGeneration stream request =>
    obtain ⟨-, ⟨⟩⟩ := Option.ite_none_left_eq_some.mp hstep
    exact h.consume _ _ _ _ _ _
  | detach id generation =>
    cases hstep
    exact h.detach id generation
  | sample calls now =>
    cases hstep
    exact h.sampleIds _ _ _ _
  | shutdown =>
    cases hstep
    exact Sound.shutdown registry

theorem Sound.run [BEq F] {initial : Registry F σ} {actions : List (RegistryAction F σ)} (h : initial.Sound)
    (hrun : Run (Registry.step config) initial actions registry) : registry.Sound := by
  induction hrun with
  | nil => exact h
  | snoc _ hstep ih => exact ih.step hstep

/-- In every state that operations on the HAL worker can reach, from a registry without proxies, every
retained proxy meets the fail-safe condition. -/
theorem remoteComponent_failSafe [BEq F] {config : RegistryConfig} {admission : AdmissionCounter}
    {slab : HalAllocationSlab} {actions : List (RegistryAction F σ)}
    (hrun : Run (Registry.step config) { admission, slab } actions registry) {id : HalName}
    {proxy : Proxy F σ} (hlookup : registry.proxies.lookup id = some proxy) : proxy.FailSafe := by
  have hempty : ({ admission, slab } : Registry F σ).Sound := by
    intro id proxy hlookup
    cases hlookup
  exact ((hempty.run hrun) id proxy hlookup).2.failSafe

/-! A component with one output that has a disconnect value: created, activated, and lost when its
heartbeats stop. -/

def sampleConfig : RegistryConfig :=
  { maxItems := 8
    heartbeatInterval := 1000
    heartbeatTimeout := 3000
    defaultSamplingPeriod := 20
    minSamplingPeriod := 5
    maxSamplingPeriod := 1000
    halNameLen := 47 }

def sampleInputs (now : ℤ) : RegistryInputs ℤ :=
  { now
    calls :=
      { halInit := 1
        itemNew := fun _ => 0
        halReady := 0
        thrown := none
        read := fun _ => .bit false }
    proxyId := ['p']
    token := [1] }

def lampCreate : HalComponentCreate ℤ :=
  { name := ['l']
    pins := [{
      name := ['a']
      type := some .bit
      direction := some .output
      disconnectValue := some ⟨some .bit, some (.bit false)⟩ }] }

def lampOn : List (ComponentValue ℤ) :=
  [⟨⟨.pin, ['a']⟩, ⟨some .bit, some (.bit true)⟩⟩]

def lampActivated : List (RegistryAction ℤ ℕ) :=
  [.consume (sampleInputs 0) [] 0 7 (.create lampCreate),
    .consume { sampleInputs 0 with proxyId := ['q'] } ['p'] 1 7 (.activate 1 lampOn)]

def lampLost : List (RegistryAction ℤ ℕ) :=
  lampActivated ++ [.sample (sampleInputs 0).calls 3000000000]

def lampInitial : Registry ℤ ℕ := { admission := { capacity := 1 }, slab := .create 8 }

def lampAfter (actions : List (RegistryAction ℤ ℕ)) : Registry ℤ ℕ :=
  (exec (Registry.step sampleConfig) lampInitial actions).getD lampInitial

def lampWritten (registry : Registry ℤ ℕ) : Option (List (Option (HalAdapterValue ℤ))) :=
  (registry.proxies.lookup ['p']).map fun proxy =>
    [proxy.component.lastWritten kOnlinePin, proxy.component.lastWritten ['a']]

theorem lampActivated_run :
    Run (Registry.step sampleConfig) lampInitial lampActivated (lampAfter lampActivated) :=
  .of_exec rfl

theorem lampLost_run : Run (Registry.step sampleConfig) lampInitial lampLost (lampAfter lampLost) :=
  .of_exec rfl

theorem remoteComponent_failSafe_lamp :
    lampWritten (lampAfter lampActivated) = some [some (.bit true), some (.bit true)] ∧
      lampWritten (lampAfter lampLost) = some [some (.bit false), some (.bit false)] ∧
      (∀ proxy, (lampAfter lampActivated).proxies.lookup ['p'] = some proxy → proxy.FailSafe) ∧
        ∀ proxy, (lampAfter lampLost).proxies.lookup ['p'] = some proxy → proxy.FailSafe :=
  ⟨rfl, rfl, fun _ hlookup => remoteComponent_failSafe lampActivated_run hlookup,
    fun _ hlookup => remoteComponent_failSafe lampLost_run hlookup⟩

end Registry

end LinuxcncCtrl
