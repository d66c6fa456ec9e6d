import LinuxcncCtrl.Proofs.RemoteComponent

/-! How a reference finds its item. `find_item` removes the component's prefix from every name that
begins with it, also from the suffix of an item; so a suffix that begins with the prefix and a dot is
taken for the full name of another item. -/

namespace LinuxcncCtrl

variable {F σ : Type} {component : HalComponent F} {definitions : List (ItemDefinition F)}
  {registry : Registry F σ} {config : RegistryConfig} {create : HalComponentCreate F} {calls : HalCalls F}
  {slab : HalAllocationSlab} {namePrefix : HalName} {inputs : RegistryInputs F}

theorem addDefinitions_namePrefix {halNameLen : ℕ} {slab' : HalAllocationSlab} {component' : HalComponent F}
    (h : addDefinitions halNameLen calls slab component definitions = (slab', component', none)) :
    component'.namePrefix = component.namePrefix := by
  induction definitions generalizing slab component with
  | nil =>
    obtain ⟨-, hcomponent⟩ := Prod.mk.inj h
    cases hcomponent
    rfl
  | cons definition definitions ih =>
    unfold addDefinitions at h
    split at h
    next => cases h
    next => cases h
    next slab₁ component₁ hadd =>
      obtain ⟨item, -, hitems⟩ := addItem_ok hadd
      rw [ih h, hitems]

theorem buildComponent_namePrefix (hpath : namePrefix ≠ [])
    (h : registry.buildComponent config calls create namePrefix definitions = .ok (component, slab)) :
    component.namePrefix = namePrefix := by
  unfold Registry.buildComponent at h
  split at h
  next => cases h
  next opened hopen =>
    have hopened : opened.namePrefix = namePrefix := by
      unfold HalComponent.openComponent at hopen
      dsimp only at hopen
      rw [if_neg hpath] at hopen
      split_ifs at hopen
      obtain rfl := Except.ok.inj hopen
      rfl
    split at h
    next => cases h
    next slab₁ component₁ hdefinitions =>
      have hadded := addDefinitions_namePrefix hdefinitions
      split at h
      next => cases h
      next => cases h
      next slab₂ component₂ honline =>
        obtain ⟨item, -, rfl⟩ := addItem_ok honline
        split at h
        next => cases h
        next component₃ hready =>
          have hready' : component₃.namePrefix = component₁.namePrefix := by
            unfold HalComponent.setReady HalComponent.write at hready
            split_ifs at hready <;> (obtain rfl := Except.ok.inj hready; rfl)
          split at h
          next => cases h
          next =>
            cases Except.ok.inj h
            rw [hready', hadded, hopened]

/-- A creation that succeeds retains the proxy it built. -/
theorem Registry.create_ok {registry' : Registry F σ} {stream : σ} {result : RemoteComponentResult F}
    (hcreate : registry.create config inputs stream create = (registry', result))
    (hok : result.status.code = .ok) :
    ∃ definitions component namePrefix slab, namePrefix ≠ [] ∧ schemaDefinitions create = .ok definitions ∧
      registry.buildComponent config inputs.calls create namePrefix definitions = .ok (component, slab) ∧
      registry'.proxies.lookup result.proxyId =
        some (registry.createdProxy config inputs stream create component namePrefix definitions).1 := by
  unfold Registry.create at hcreate
  dsimp only at hcreate
  generalize (if create.namePrefix = [] then create.name else create.namePrefix) = namePrefix at hcreate
  split_ifs at hcreate with hempty
  · cases hcreate
    cases hok
  · cases hcreate
    cases hok
  · split at hcreate
    next status hstatus =>
      cases hcreate
      exact absurd hok (schemaDefinitions_error hstatus)
    next definitions hdefinitions =>
      split at hcreate
      next admission _ _ =>
        split at hcreate
        next failure slab _ =>
          cases hcreate
          exact absurd hok (createFailure_status failure)
        next component slab hbuild =>
          cases hcreate
          refine ⟨definitions, component, namePrefix, slab, (not_or.mp hempty).2, hdefinitions, hbuild, ?_⟩
          rw [lookup_setProxy, if_pos rfl]
          rfl
      next =>
        cases hcreate
        cases hok

namespace Proxy

variable {proxy : Proxy F σ} {item : ProxyItem F}

/-- The items are found by suffix and kind, whatever the order they are in. -/
theorem Schema.find_eq (h : proxy.Schema) (hitem : item ∈ proxy.items) : (proxy.items.find? fun other =>
      decide (other.suffix = item.suffix) && decide (other.kind = item.kind)) = some item := by
  cases hfind : proxy.items.find? fun other =>
      decide (other.suffix = item.suffix) && decide (other.kind = item.kind) with
  | none =>
    have hnot := List.find?_eq_none.mp hfind item hitem
    simp at hnot
  | some found =>
    have hsuffix : found.suffix = item.suffix := by
      have hfound := List.find?_some hfind
      simp only [Bool.and_eq_true, decide_eq_true_eq] at hfound
      exact hfound.1
    rw [List.inj_on_of_nodup_map h.distinct (List.mem_of_find?_eq_some hfind) hitem hsuffix]

/-- Each item has its full name. -/
def Named (proxy : Proxy F σ) : Prop :=
  ∀ item ∈ proxy.items, item.fullName = proxy.component.namePrefix ++ '.' :: item.suffix

theorem Schema.findItem_fullName (h : proxy.Schema) (hnamed : proxy.Named) (hitem : item ∈ proxy.items) :
    proxy.findItem ⟨item.kind, item.fullName⟩ = some item := by
  have hfull : item.fullName = (proxy.component.namePrefix ++ ['.']) ++ item.suffix := by
    rw [hnamed item hitem, List.append_assoc]
    rfl
  unfold findItem
  dsimp only
  rw [hfull, if_pos (List.isPrefixOf_iff_prefix.mpr (List.prefix_append _ _)), List.drop_left]
  exact h.find_eq hitem

/-- A suffix that begins with the prefix loses it, and is then too short to find its own item. -/
theorem Schema.findItem_suffix_iff (h : proxy.Schema) (hitem : item ∈ proxy.items) :
    proxy.findItem ⟨item.kind, item.suffix⟩ = some item ↔
      ¬ proxy.component.namePrefix ++ ['.'] <+: item.suffix := by
  unfold findItem
  dsimp only
  by_cases hstart : proxy.component.namePrefix ++ ['.'] <+: item.suffix
  · rw [if_pos (List.isPrefixOf_iff_prefix.mpr hstart)]
    refine iff_of_false (fun hfind => ?_) (not_not.mpr hstart)
    have hfound := List.find?_some hfind
    simp only [Bool.and_eq_true, decide_eq_true_eq] at hfound
    have hlength := congrArg List.length hfound.1
    have hle := hstart.length_le
    simp only [List.length_drop, List.length_append, List.length_singleton] at hlength hle
    omega
  · rw [if_neg (fun hprefix => hstart (List.isPrefixOf_iff_prefix.mp hprefix))]
    exact iff_of_true (h.find_eq hitem) hstart

/-- What is found has the name of the reference, as its suffix or as its full name. -/
theorem Named.findItem_name (hnamed : proxy.Named) {ref : HalItemRef} (h : proxy.findItem ref = some item) :
    item.suffix = ref.name ∨ item.fullName = ref.name := by
  have hitem := findItem_mem h
  have hfound := List.find?_some h
  simp only [Bool.and_eq_true, decide_eq_true_eq] at hfound
  split_ifs at hfound with hstart
  · right
    obtain ⟨rest, hrest⟩ := List.isPrefixOf_iff_prefix.mp hstart
    rw [← hrest, List.drop_left] at hfound
    rw [hnamed item hitem, hfound.1, ← hrest, List.append_assoc]
    rfl
  · exact .inl hfound.1

end Proxy

theorem createdProxy_named (hpath : component.namePrefix = namePrefix) (stream : σ) :
    (registry.createdProxy config inputs stream create component namePrefix definitions).1.Named := by
  intro item' hitem'
  obtain ⟨item, hitem, rfl⟩ := List.mem_map.mp hitem'
  have hnames : item.fullName = namePrefix ++ '.' :: item.suffix := by
    rcases List.mem_append.mp hitem with hitem | hitem
    · obtain ⟨definition, -, rfl⟩ := List.mem_map.mp hitem
      rfl
    · rw [List.mem_singleton.mp hitem]
      rfl
  split <;> exact hpath ▸ hnames

namespace Registry

/-- A proxy that was created finds each item by its full name, and by its suffix exactly when that does not
begin with the component's prefix and a dot. Whatever a reference finds has the referenced name. -/
theorem create_items_resolve {registry registry' : Registry F σ} {config : RegistryConfig}
    {inputs : RegistryInputs F} {stream : σ} {create : HalComponentCreate F}
    {result : RemoteComponentResult F}
    (hcreate : registry.create config inputs stream create = (registry', result))
    (hok : result.status.code = .ok) :
    ∃ proxy, registry'.proxies.lookup result.proxyId = some proxy ∧ (∀ item ∈ proxy.items,
        item.fullName = proxy.component.namePrefix ++ '.' :: item.suffix ∧
        proxy.findItem ⟨item.kind, item.fullName⟩ = some item ∧
        (proxy.findItem ⟨item.kind, item.suffix⟩ = some item ↔
          ¬ proxy.component.namePrefix ++ ['.'] <+: item.suffix)) ∧
      ∀ ref item, proxy.findItem ref = some item → item.suffix = ref.name ∨ item.fullName = ref.name := by
  obtain ⟨definitions, component, namePrefix, slab, hpath, hschema, hbuild, hlookup⟩ :=
    create_ok hcreate hok
  have hnamed : (registry.createdProxy config inputs stream create component namePrefix definitions).1.Named :=
    createdProxy_named (buildComponent_namePrefix hpath hbuild) stream
  have hinv := (newProxy_inv hschema hbuild stream).encodeSnapshot config inputs.calls true
  refine ⟨_, hlookup, fun item hitem => ⟨hnamed item hitem, ?_, ?_⟩, fun ref item => hnamed.findItem_name⟩
  · exact hinv.schema.findItem_fullName hnamed hitem
  · exact hinv.schema.findItem_suffix_iff hitem

/-! Outputs `a.b` and `b` of a component with the prefix `a`. -/

def dottedCreate : HalComponentCreate ℤ :=
  { name := ['a']
    pins := [{ name := ['a', '.', 'b'], type := some .bit, direction := some .output },
      { name := ['b'], type := some .bit, direction := some .output }] }

def dottedOutcome : Registry ℤ ℕ × RemoteComponentResult ℤ :=
  lampInitial.create sampleConfig (sampleInputs 0) 7 dottedCreate

/-- The suffixes of the items that references to pins find. -/
def dottedFound (names : List HalName) : Option (List (Option HalName)) :=
  (dottedOutcome.1.proxies.lookup dottedOutcome.2.proxyId).map fun proxy =>
    names.map fun name => (proxy.findItem ⟨.pin, name⟩).map ProxyItem.suffix

theorem create_items_resolve_dotted : dottedOutcome.2.status.code = .ok ∧
      dottedFound [['b'], ['a', '.', 'b'], ['a', '.', 'a', '.', 'b']] =
        some [some ['b'], some ['b'], some ['a', '.', 'b']] ∧
      ∃ proxy, dottedOutcome.1.proxies.lookup dottedOutcome.2.proxyId = some proxy ∧
        ∀ item ∈ proxy.items, proxy.findItem ⟨item.kind, item.fullName⟩ = some item := by
  have hok : dottedOutcome.2.status.code = .ok := by decide +kernel
  obtain ⟨proxy, hlookup, hitems, -⟩ := create_items_resolve (Prod.eta dottedOutcome).symm hok
  exact ⟨hok, by decide +kernel, proxy, hlookup, fun item hitem => (hitems item hitem).2.1⟩

/-- The component has an output `a.b`, but a reference to this suffix finds the output `b`. -/
theorem suffix_finds_other : dottedOutcome.2.status.code = .ok ∧
      (dottedOutcome.1.proxies.lookup dottedOutcome.2.proxyId).map (fun proxy =>
        proxy.items.map fun item => (item.suffix, item.kind)) =
          some [(['a', '.', 'b'], .pin), (['b'], .pin), (kOnlinePin, .pin)] ∧
      dottedFound [['a', '.', 'b']] = some [some ['b']] := by
  decide +kernel

end Registry

end LinuxcncCtrl
