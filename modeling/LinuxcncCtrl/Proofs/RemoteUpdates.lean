import LinuxcncCtrl.Sanity.RemoteUpdates

/-! Activations and updates of a remote component. A message is checked as a whole before its first value
is written, and what passes the check is accepted by the component. -/

namespace LinuxcncCtrl

open Lib

variable {F σ : Type}

namespace Proxy

variable {proxy : Proxy F σ} {values : List (ComponentValue F)}
  {decoded : List (ProxyItem F × HalAdapterValue F)}

/-- The item and the value that an entry of a message stands for. -/
def Decodes (proxy : Proxy F σ) (update : ComponentValue F) (entry : ProxyItem F × HalAdapterValue F) : Prop :=
  proxy.findItem update.item = some entry.1 ∧ typedValue entry.1.type update.value = some entry.2

theorem decodeUpdates_decodes {seen : List HalName} (h : proxy.decodeUpdates seen values = .ok decoded) :
    List.Forall₂ proxy.Decodes values decoded := by
  induction values generalizing seen decoded with
  | nil =>
    cases h
    exact .nil
  | cons update updates ih =>
    unfold decodeUpdates at h
    split at h
    next => cases h
    next item hitem =>
      split_ifs at h
      split at h
      next => cases h
      next value hvalue =>
        split at h
        next => cases h
        next rest hrest =>
          cases h
          exact .cons ⟨hitem, hvalue⟩ (ih hrest)

variable {complete : Bool}

theorem decodeValues_decodes (h : proxy.decodeValues values complete = .ok decoded) :
    (decoded.map fun entry => entry.1.suffix).Nodup ∧
      (∀ update ∈ values, ∃ entry ∈ decoded, proxy.Decodes update entry) ∧
        ∀ entry ∈ decoded, ∃ update ∈ values, proxy.Decodes update entry := by
  unfold decodeValues at h
  split at h
  next => cases h
  next decoded' hdecoded =>
    split_ifs at h
    obtain rfl := Except.ok.inj h
    have hdecodes := decodeUpdates_decodes hdecoded
    refine ⟨(decodeUpdates_ok hdecoded).1, fun update hupdate => ?_, fun entry hentry => ?_⟩
    · obtain ⟨index, hindex, rfl⟩ := List.getElem_of_mem hupdate
      have hindex' : index < decoded'.length := hdecodes.length_eq ▸ hindex
      exact ⟨_, List.getElem_mem hindex', hdecodes.get hindex hindex'⟩
    · obtain ⟨index, hindex', rfl⟩ := List.getElem_of_mem hentry
      have hindex : index < values.length := hdecodes.length_eq ▸ hindex'
      exact ⟨_, List.getElem_mem hindex, hdecodes.get hindex hindex'⟩

/-- What an accepted message does to the memory of HAL. Each listed item holds its value, unless it shares
its address with another item that is written; a cell of no such item is unchanged. `managed` are the
items that the server writes itself. -/
structure Applies (proxy : Proxy F σ) (values : List (ComponentValue F)) (managed : List HalName)
    (writes : List (HalName × HalAdapterValue F)) : Prop where
  listed : ∀ update ∈ values, ∃ item value, proxy.findItem update.item = some item ∧
    item.clientWritable = true ∧ typedValue item.type update.value = some value ∧
    ∀ (address : HalName → ℕ) (memory : ℕ → HalAdapterValue F),
      (∀ other ∈ values, ∀ item', proxy.findItem other.item = some item' →
        address item'.suffix = address item.suffix → item'.suffix = item.suffix) →
      (∀ name ∈ managed, address name ≠ address item.suffix) →
      HalComponent.stored address memory writes (address item.suffix) = value
  unlisted : ∀ (address : HalName → ℕ) (memory : ℕ → HalAdapterValue F) (cell : ℕ),
    (∀ update ∈ values, ∀ item, proxy.findItem update.item = some item → address item.suffix ≠ cell) →
    (∀ name ∈ managed, address name ≠ cell) →
    HalComponent.stored address memory writes cell = memory cell

theorem applies_of_decoded (h : proxy.decodeValues values complete = .ok decoded)
    (more : List (HalName × HalAdapterValue F)) :
    proxy.Applies values (more.map Prod.fst) (valueWrites decoded ++ more) := by
  obtain ⟨hdistinct, hforward, hbackward⟩ := decodeValues_decodes h
  refine ⟨fun update hupdate => ?_, fun address memory cell hlisted hmanaged => ?_⟩
  · obtain ⟨entry, hentry, hitem, hvalue⟩ := hforward update hupdate
    refine ⟨entry.1, entry.2, hitem, ((decodeValues_ok h).1 entry hentry).2.1, hvalue, ?_⟩
    intro address memory hshared hmanaged
    apply storeAll_of_mem
    · simp only [List.map_map, List.map_append, List.mem_append]
      exact .inl (List.mem_map.mpr ⟨_, List.mem_map_of_mem hentry, rfl⟩)
    · intro store hstore hcell
      obtain ⟨write, hwrite, rfl⟩ := List.mem_map.mp hstore
      rcases List.mem_append.mp hwrite with hwrite | hwrite
      · obtain ⟨other, hother, rfl⟩ := List.mem_map.mp hwrite
        obtain ⟨update', hupdate', hitem', -⟩ := hbackward other hother
        have hsuffix := hshared update' hupdate' other.1 hitem' hcell
        rw [List.inj_on_of_nodup_map hdistinct hother hentry hsuffix]
      · exact absurd hcell (hmanaged write.1 (List.mem_map_of_mem hwrite))
  · apply storeAll_of_notMem
    rw [List.map_map]
    intro hmem
    obtain ⟨write, hwrite, hcell⟩ := List.mem_map.mp hmem
    rcases List.mem_append.mp hwrite with hwrite | hwrite
    · obtain ⟨entry, hentry, rfl⟩ := List.mem_map.mp hwrite
      obtain ⟨update, hupdate, hitem, -⟩ := hbackward entry hentry
      exact hlisted update hupdate entry.1 hitem hcell
    · exact hmanaged write.1 (List.mem_map_of_mem hwrite) hcell

theorem Inv.listed_iff (h : proxy.Inv) (hdecoded : proxy.decodeValues values true = .ok decoded)
    {item : ProxyItem F} (hitem : item ∈ proxy.items) :
    item.clientWritable = true ↔ ∃ update ∈ values, proxy.findItem update.item = some item := by
  obtain ⟨-, hforward, hbackward⟩ := decodeValues_decodes hdecoded
  obtain ⟨hclient, hcomplete⟩ := decodeValues_ok hdecoded
  constructor
  · intro hwritable
    obtain ⟨value, -, hwrite⟩ := hcomplete rfl item hitem hwritable
    obtain ⟨entry, hentry, hsame⟩ := List.mem_map.mp hwrite
    obtain ⟨update, hupdate, hfound, -⟩ := hbackward entry hentry
    obtain rfl : entry.1 = item :=
      List.inj_on_of_nodup_map h.schema.distinct (hclient entry hentry).1 hitem (Prod.mk.inj hsame).1
    exact ⟨update, hupdate, hfound⟩
  · rintro ⟨update, hupdate, hfound⟩
    obtain ⟨entry, hentry, hfound', -⟩ := hforward update hupdate
    cases hfound.symm.trans hfound'
    exact (hclient entry hentry).2.1

end Proxy

namespace Registry

variable {registry : Registry F σ} {config : RegistryConfig}

/-- A message on the current attachment of a proxy is carried out as a whole or not at all. Either way it leaves
the other proxies alone. -/
structure Atomic (registry : Registry F σ) (proxy : Proxy F σ) (values : List (ComponentValue F))
    (managed : List HalName) (outcome : Registry F σ × RemoteComponentResult F) : Prop where
  refused : outcome.2.status.code ≠ .ok →
    ∀ id, outcome.1.proxies.lookup id = registry.proxies.lookup id
  accepted : outcome.2.status.code = .ok →
    ∃ proxy' writes, outcome.1.proxies.lookup proxy.id = some proxy' ∧
      proxy'.component.writes = proxy.component.writes ++ writes ∧ proxy.Applies values managed writes
  others : ∀ id, id ≠ proxy.id → outcome.1.proxies.lookup id = registry.proxies.lookup id

variable {proxy : Proxy F σ}

theorem atomic_of_answered {values : List (ComponentValue F)}
    {complete : Bool} {done : List (ProxyItem F × HalAdapterValue F) → Proxy F σ}
    {response : HalComponentServerMessage F} {answer : Proxy F σ × RemoteComponentResult F}
    (more : List (HalName × HalAdapterValue F)) (hlookup : registry.proxies.lookup proxy.id = some proxy)
    (hanswered : proxy.Answered values complete done response answer)
    (hid : ∀ decoded, (done decoded).id = proxy.id)
    (hwrites : ∀ decoded, (done decoded).component.writes =
      proxy.component.writes ++ (Proxy.valueWrites decoded ++ more)) :
    registry.Atomic proxy values (more.map Prod.fst) (registry.setProxy answer.1, answer.2) := by
  cases hanswered with
  | refused status hstatus =>
    have hsame : ∀ other, (registry.setProxy proxy).proxies.lookup other = registry.proxies.lookup other := by
      intro other
      rw [lookup_setProxy]
      split_ifs with heq
      · rw [heq, hlookup]
      · rfl
    exact ⟨fun _ => hsame, fun hok => absurd hok hstatus, fun other _ => hsame other⟩
  | accepted decoded hdecoded =>
    refine ⟨fun hne => absurd rfl hne, fun _ => ?_, fun other hother => ?_⟩
    · refine ⟨done decoded, _, ?_, hwrites decoded, Proxy.applies_of_decoded hdecoded more⟩
      rw [lookup_setProxy, if_pos (hid decoded).symm]
    · rw [lookup_setProxy, if_neg (hid decoded ▸ hother)]

theorem consume_current (config : RegistryConfig) {id : HalName} {generation : ℕ} (hid : id ≠ [])
    (hcurrent : registry.Current id generation proxy) (inputs : RegistryInputs F) (stream : σ) (claimed : ℕ)
    (values : List (ComponentValue F)) :
    registry.consume config inputs id generation stream (.activate claimed values) =
        registry.dispatch proxy inputs.now (.activate claimed values) ∧
      ∀ sequence, registry.consume config inputs id generation stream (.update claimed sequence values) =
        registry.dispatch proxy inputs.now (.update claimed sequence values) := by
  obtain ⟨hlookup, hattached, hgeneration⟩ := hcurrent
  have hcurrent : ¬ (proxy.attached = false ∨ proxy.generation ≠ generation) := by
    rw [hattached, hgeneration]
    simp
  unfold Registry.consume
  rw [decide_eq_false hid]
  rw [hlookup]
  dsimp only
  rw [if_neg hcurrent]
  exact ⟨rfl, fun _ => if_neg hcurrent⟩

/-- In every state that operations on the HAL worker can reach, an activation or an update on the current
attachment of a proxy that is refused leaves every proxy as it was. One that is accepted writes the
listed values and nothing else of any proxy, but for `online`, which an activation writes too; an activation lists
exactly the items of the client. The updates accepted within a generation have the sequences 1, 2, 3
and so on. -/
theorem remoteComponent_atomic [BEq F] {admission : AdmissionCounter} {slab : HalAllocationSlab}
    {actions : List (RegistryAction F σ)} {history : UpdateHistory F σ}
    (hrun : Run (UpdateHistory.step config) { registry := { admission, slab } } actions history) :
    (∀ id generation proxy, history.registry.Current id generation proxy → ∀ inputs stream claimed values,
        history.registry.Atomic proxy values [kOnlinePin]
          (history.registry.consume config inputs id generation stream (.activate claimed values)) ∧
        ((history.registry.consume config inputs id generation stream
            (.activate claimed values)).2.status.code = .ok →
          ∀ item ∈ proxy.items, item.clientWritable = true ↔
            ∃ update ∈ values, proxy.findItem update.item = some item) ∧
        ∀ sequence, history.registry.Atomic proxy values []
          (history.registry.consume config inputs id generation stream
            (.update claimed sequence values))) ∧
      ∀ incarnation generation, ∃ count,
        history.sequences incarnation generation = List.range' 1 count := by
  have hordered : history.Ordered := by
    apply hrun.invariant
    · exact .empty admission slab
    · intro history action history' hstep h
      exact h.step hstep
  refine ⟨fun id generation proxy hcurrent inputs stream claimed values => ?_, hordered.numbered⟩
  have hlookup := hcurrent.1
  obtain ⟨hactivate, hupdate⟩ :=
    consume_current config (hordered.named id proxy hlookup) hcurrent inputs stream claimed values
  rw [hactivate]
  obtain ⟨rfl, hproxy⟩ := hordered.sound id proxy hlookup
  refine ⟨?_, ?_, fun sequence => ?_⟩
  · exact atomic_of_answered [(kOnlinePin, .bit true)] hlookup
      (hproxy.activate_answered inputs.now values claimed) (fun _ => rfl) fun _ => rfl
  · intro hok item hitem
    have hanswered := hproxy.activate_answered inputs.now values claimed
    unfold Registry.dispatch at hok
    dsimp only at hok
    generalize proxy.activate inputs.now claimed values = answer at *
    cases hanswered with
    | refused status hstatus => exact absurd hok hstatus
    | accepted decoded hdecoded => exact hproxy.listed_iff hdecoded hitem
  · rw [hupdate sequence]
    refine atomic_of_answered [] hlookup
      (hproxy.update_answered inputs.now values claimed sequence) (fun _ => rfl) fun decoded => ?_
    rw [List.append_nil]
    rfl

/-! Two updates of the lamp after its activation, and an update that is out of order between them. -/

def lampUpdate (sequence : ℕ) : RegistryAction ℤ ℕ :=
  .consume { sampleInputs 0 with proxyId := ['q'] } ['p'] 1 7 (.update 1 sequence lampOn)

def lampUpdated : UpdateHistory ℤ ℕ :=
  (exec (UpdateHistory.step sampleConfig) { registry := lampInitial }
    (lampActivated ++ [lampUpdate 1, lampUpdate 3, lampUpdate 2])).getD { registry := lampInitial }

theorem remoteComponent_atomic_lamp : lampUpdated.sequences 0 1 = [1, 2] ∧
      (lampUpdated.registry.proxies.lookup ['p']).map (fun proxy => (proxy.attached, proxy.generation)) =
        some (true, 1) ∧
      (∀ proxy, lampUpdated.registry.Current ['p'] 1 proxy → ∀ sequence,
        lampUpdated.registry.Atomic proxy lampOn []
          (lampUpdated.registry.consume sampleConfig (sampleInputs 0) ['p'] 1 7
            (.update 1 sequence lampOn))) ∧
      ∃ count, lampUpdated.sequences 0 1 = List.range' 1 count := by
  have hrun : Run (UpdateHistory.step sampleConfig) { registry := lampInitial }
      (lampActivated ++ [lampUpdate 1, lampUpdate 3, lampUpdate 2]) lampUpdated :=
    .getD_exec (by decide +kernel)
  have hatomic := remoteComponent_atomic hrun
  refine ⟨by decide +kernel, by decide +kernel, fun proxy hcurrent sequence => ?_, hatomic.2 0 1⟩
  exact (hatomic.1 ['p'] 1 proxy hcurrent (sampleInputs 0) 7 1 lampOn).2.2 sequence

/-! Two pins that the client reads and writes, linked to one signal. -/

def pairCreate : HalComponentCreate ℤ :=
  { name := ['l']
    pins := [{ name := ['a'], type := some .bit, direction := some .io },
      { name := ['b'], type := some .bit, direction := some .io }] }

def pairValues : List (ComponentValue ℤ) :=
  [⟨⟨.pin, ['a']⟩, ⟨some .bit, some (.bit true)⟩⟩, ⟨⟨.pin, ['b']⟩, ⟨some .bit, some (.bit false)⟩⟩]

def pairCreated : Registry ℤ ℕ :=
  (lampInitial.consume sampleConfig (sampleInputs 0) [] 0 7 (.create pairCreate)).1

def pairActivated : Registry ℤ ℕ × RemoteComponentResult ℤ :=
  pairCreated.consume sampleConfig (sampleInputs 0) ['p'] 1 7 (.activate 1 pairValues)

/-- Both pins at address 1, every other item at 0. -/
def pairAddress (name : HalName) : ℕ := if name = ['a'] ∨ name = ['b'] then 1 else 0

/-- The values of `online` and of the first pin. -/
def pairStored (registry : Registry ℤ ℕ) : Option (List (HalAdapterValue ℤ)) :=
  (registry.proxies.lookup ['p']).map fun proxy =>
    [kOnlinePin, ['a']].map fun name =>
      HalComponent.stored pairAddress (fun _ => .bit false) proxy.component.writes (pairAddress name)

/-- The activation is accepted. It changes `online`, which it does not list, and the first pin does not
hold the value listed for it. -/
theorem activation_beyond_listed : pairActivated.2.status.code = .ok ∧
      pairStored pairCreated = some [.bit false, .bit false] ∧
        pairStored pairActivated.1 = some [.bit true, .bit false] := by
  decide +kernel

end Registry

end LinuxcncCtrl
