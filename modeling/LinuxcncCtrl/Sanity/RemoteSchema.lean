import LinuxcncCtrl.Sanity.HalComponent
import LinuxcncCtrl.Spec.RemoteComponent

/-! What `create` builds from a schema it accepts. The names of the items are distinct and none of them
is `online`; the component has exactly these items and the managed pin. -/

namespace LinuxcncCtrl

variable {F σ : Type}

/-- An item with a disconnect value is one the client writes, and the value has its type. -/
def ItemDefinition.Sound (definition : ItemDefinition F) : Prop :=
  ∀ value, definition.disconnect = some value →
    definition.writable = true ∧ value.type = definition.type

variable {type : HalAdapterType}

theorem typedValue_type {scalar : HalScalar F} {value : HalAdapterValue F}
    (h : typedValue type scalar = some value) : value.type = type := by
  obtain ⟨-, htype⟩ := Option.filter_eq_some_iff.mp h
  exact of_decide_eq_true htype

variable {names : List HalName} {definition : ItemDefinition F} {definitions : List (ItemDefinition F)}
  {name : HalName} {create : HalComponentCreate F}

theorem itemDefinition_ok {schemaError disconnectError : String} {type : Option HalAdapterType}
    {direction : Option ItemDirection}
    {allowed : ItemDirection → Bool} {disconnectValue : Option (HalScalar F)}
    (h : itemDefinition schemaError disconnectError names name type direction allowed
      disconnectValue = .ok definition) :
    definition.name ∉ names ∧ direction = some definition.direction ∧
      ∀ value, definition.disconnect = some value →
        allowed definition.direction = true ∧ value.type = definition.type := by
  unfold itemDefinition at h
  split at h
  next type direction =>
    split_ifs at h with hname
    have hfresh : name ∉ names := fun hmem => hname (.inr hmem)
    split at h
    next =>
      cases h
      exact ⟨hfresh, rfl, nofun⟩
    next scalar =>
      split at h
      next value hallowed hvalue =>
        cases h
        refine ⟨hfresh, rfl, fun value' heq => ?_⟩
        cases heq
        exact ⟨hallowed, typedValue_type hvalue⟩
      next => cases h
  next => cases h

theorem pinDefinition_ok {pin : HalComponentPin F} (h : pinDefinition names pin = .ok definition) :
    definition.name ∉ names ∧ definition.Sound := by
  obtain ⟨hfresh, -, hdisconnect⟩ := itemDefinition_ok h
  refine ⟨hfresh, fun value hvalue => ?_⟩
  obtain ⟨hallowed, htype⟩ := hdisconnect value hvalue
  refine ⟨?_, htype⟩
  unfold ItemDefinition.writable
  rcases of_decide_eq_true hallowed with hdirection | hdirection <;> rw [hdirection] <;> rfl

theorem parameterDefinition_ok {parameter : HalComponentParameter F}
    (h : parameterDefinition names parameter = .ok definition) :
    definition.name ∉ names ∧ definition.Sound := by
  obtain ⟨hfresh, hdirection, hdisconnect⟩ := itemDefinition_ok h
  refine ⟨hfresh, fun value hvalue => ⟨?_, (hdisconnect value hvalue).2⟩⟩
  obtain ⟨direction, -, hparam⟩ := Option.map_eq_some_iff.mp hdirection
  unfold ItemDefinition.writable
  rw [← hparam]

theorem checkItems_ok {α : Type} {check : List HalName → α → Except GrpcStatus (ItemDefinition F)}
    (hcheck : ∀ names item definition, check names item = .ok definition →
      definition.name ∉ names ∧ definition.Sound) {items : List α}
    (h : checkItems check names items = .ok definitions) :
    (definitions.map ItemDefinition.name).Nodup ∧
      ∀ definition ∈ definitions, definition.name ∉ names ∧ definition.Sound := by
  induction items generalizing names definitions with
  | nil =>
    cases h
    exact ⟨List.nodup_nil, by simp⟩
  | cons item items ih =>
    unfold checkItems at h
    split at h
    next => cases h
    next first hfirst =>
      split at h
      next => cases h
      next rest hrest =>
        cases h
        obtain ⟨hnodup, hall⟩ := ih hrest
        refine ⟨?_, ?_⟩
        · rw [List.map_cons, List.nodup_cons]
          refine ⟨fun hmem => ?_, hnodup⟩
          obtain ⟨other, hother, hname⟩ := List.mem_map.mp hmem
          exact (hall other hother).1 (hname ▸ List.mem_cons_self)
        · intro definition hdefinition
          rcases List.mem_cons.mp hdefinition with rfl | hdefinition
          · exact hcheck names item definition hfirst
          · obtain ⟨hname, hsound⟩ := hall definition hdefinition
            exact ⟨fun hmem => hname (List.mem_cons_of_mem _ hmem), hsound⟩

theorem schemaDefinitions_ok (h : schemaDefinitions create = .ok definitions) :
    (definitions.map ItemDefinition.name).Nodup ∧
      ∀ definition ∈ definitions, definition.name ≠ kOnlinePin ∧ definition.Sound := by
  unfold schemaDefinitions at h
  split at h
  next => cases h
  next pins hpins =>
    split at h
    next => cases h
    next parameters hparameters =>
      cases h
      obtain ⟨hpinsNodup, hpinsAll⟩ := checkItems_ok (fun _ _ _ => pinDefinition_ok) hpins
      obtain ⟨hparamsNodup, hparamsAll⟩ :=
        checkItems_ok (fun _ _ _ => parameterDefinition_ok) hparameters
      refine ⟨?_, ?_⟩
      · rw [List.map_append, List.nodup_append']
        refine ⟨hpinsNodup, hparamsNodup, fun name hpin hparam => ?_⟩
        obtain ⟨parameter, hparameter, rfl⟩ := List.mem_map.mp hparam
        apply (hparamsAll parameter hparameter).1
        exact List.mem_append_left _ (List.mem_reverse.mpr hpin)
      · intro definition hdefinition
        rcases List.mem_append.mp hdefinition with hpin | hparam
        · obtain ⟨hname, hsound⟩ := hpinsAll definition hpin
          exact ⟨fun heq => hname (heq ▸ List.mem_singleton_self _), hsound⟩
        · obtain ⟨hname, hsound⟩ := hparamsAll definition hparam
          refine ⟨fun heq => hname ?_, hsound⟩
          exact List.mem_append_right _ (heq ▸ List.mem_singleton_self _)

def HalComponentItem.signature (item : HalComponentItem) :
    HalName × HalAdapterType × ItemDirection :=
  (item.suffix, item.type, item.direction)

def ItemDefinition.signature (definition : ItemDefinition F) :
    HalName × HalAdapterType × ItemDirection :=
  (definition.name, definition.type, definition.direction)

variable {calls : HalCalls F} {component component' : HalComponent F} {halNameLen : ℕ}
  {slab : HalAllocationSlab} {slab' : HalAllocationSlab}

theorem addItem_ok {suffix : HalName} {direction : ItemDirection}
    (h : component.addItem halNameLen calls slab suffix type direction = .ok (some (slab', component'))) :
    ∃ item, item.signature = (suffix, type, direction) ∧
      component' = { component with items := component.items ++ [item] } := by
  unfold HalComponent.addItem at h
  dsimp only at h
  split_ifs at h
  · cases h
  · cases h
  · split at h <;> cases h
  · split at h
    next => cases h
    next slot rest _ =>
      cases Option.some.inj (Except.ok.inj h)
      exact ⟨_, rfl, rfl⟩

theorem addDefinitions_ok
    (h : addDefinitions halNameLen calls slab component definitions = (slab', component', none)) :
    component'.items.map HalComponentItem.signature =
        component.items.map HalComponentItem.signature ++ definitions.map ItemDefinition.signature ∧
      component'.writes = component.writes := by
  induction definitions generalizing slab component with
  | nil =>
    obtain ⟨-, hcomponent⟩ := Prod.mk.inj h
    cases hcomponent
    exact ⟨(List.append_nil _).symm, rfl⟩
  | cons definition definitions ih =>
    unfold addDefinitions at h
    split at h
    next => cases h
    next => cases h
    next slab₁ component₁ hadd =>
      obtain ⟨item, hitem, rfl⟩ := addItem_ok hadd
      obtain ⟨hitems, hwrites⟩ := ih h
      refine ⟨?_, hwrites⟩
      rw [hitems, List.map_append, List.map_singleton, hitem, List.append_assoc]
      rfl

namespace HalComponent

/-- The component has exactly the items of the schema and the managed pin. -/
def Built (component : HalComponent F) (definitions : List (ItemDefinition F)) : Prop :=
  component.items.map HalComponentItem.signature =
    definitions.map ItemDefinition.signature ++ [(kOnlinePin, .bit, .pin .output)]

variable {component : HalComponent F} {definitions : List (ItemDefinition F)}

theorem Built.suffixes (h : component.Built definitions) : component.items.map HalComponentItem.suffix =
      definitions.map ItemDefinition.name ++ [kOnlinePin] := by
  have hfirst := congrArg (List.map Prod.fst) h
  simpa [HalComponentItem.signature, ItemDefinition.signature, Function.comp_def] using hfirst

theorem Built.distinct (h : component.Built definitions)
    (hnames : (definitions.map ItemDefinition.name).Nodup)
    (honline : ∀ definition ∈ definitions, definition.name ≠ kOnlinePin) :
    (component.items.map HalComponentItem.suffix).Nodup := by
  rw [h.suffixes, List.nodup_append']
  refine ⟨hnames, List.nodup_singleton _, fun name hname hmem => ?_⟩
  obtain ⟨definition, hdefinition, rfl⟩ := List.mem_map.mp hname
  exact honline definition hdefinition (List.mem_singleton.mp hmem)

theorem Built.accepts (h : component.Built definitions)
    (hdistinct : (component.items.map HalComponentItem.suffix).Nodup) {suffix : HalName}
    {type : HalAdapterType} {direction : ItemDirection} {value : HalAdapterValue F}
    (hmem : (suffix, type, direction) ∈
      definitions.map ItemDefinition.signature ++ [(kOnlinePin, .bit, .pin .output)])
    (htype : value.type = type) (hdirection : direction ≠ .pin .input) :
    component.accepts suffix value = true := by
  rw [← h] at hmem
  obtain ⟨item, hitem, hsignature⟩ := List.mem_map.mp hmem
  simp only [HalComponentItem.signature, Prod.mk.injEq] at hsignature
  obtain ⟨rfl, rfl, rfl⟩ := hsignature
  exact accepts_of_mem hdistinct hitem htype hdirection

end HalComponent

variable {namePrefix : HalName}

theorem openComponent_ok (h : HalComponent.openComponent halNameLen calls name namePrefix = .ok component) :
    component.items = [] ∧ component.writes = [] := by
  unfold HalComponent.openComponent at h
  dsimp only at h
  split_ifs at h <;> cases h <;> exact ⟨rfl, rfl⟩

theorem setReady_ok (h : component.setReady calls = .ok component') :
    component'.items = component.items ∧ component'.writes = component.writes := by
  unfold HalComponent.setReady at h
  split_ifs at h
  cases h
  exact ⟨rfl, rfl⟩

theorem buildComponent_ok {registry : Registry F σ} {config : RegistryConfig}
    (h : registry.buildComponent config calls create namePrefix definitions = .ok (component, slab)) :
    component.Built definitions ∧
      ∃ opened : HalComponent F, opened.items = component.items ∧ opened.writes = [] ∧
        component.writes = (opened.write kOnlinePin (.bit false)).1.writes := by
  unfold Registry.buildComponent at h
  split at h
  next => cases h
  next opened hopen =>
    obtain ⟨hitems, hwrites⟩ := openComponent_ok hopen
    split at h
    next => cases h
    next slab₁ component₁ hdefinitions =>
      obtain ⟨hsignatures, hwrites₁⟩ := addDefinitions_ok hdefinitions
      split at h
      next => cases h
      next => cases h
      next slab₂ component₂ honline =>
        obtain ⟨item, hitem, rfl⟩ := addItem_ok honline
        split at h
        next => cases h
        next component₃ hready =>
          obtain ⟨hitems₃, hwrites₃⟩ := setReady_ok hready
          split at h
          next => cases h
          next =>
            cases Except.ok.inj h
            rw [HalComponent.write_items] at hitems₃
            refine ⟨?_, { component₁ with items := component₁.items ++ [item] }, hitems₃.symm,
              hwrites₁.trans hwrites, hwrites₃⟩
            unfold HalComponent.Built
            rw [hitems₃, List.map_append, hsignatures, hitems, List.map_singleton, hitem]
            rfl

end LinuxcncCtrl
