import LinuxcncCtrl.Sanity.RemoteSchema

/-! What each operation on a proxy does to the values written to its component: the list of writes it
appends. Every item the registry calls client-writable is one whose writes the adapter accepts, so all
of them reach HAL. -/

namespace LinuxcncCtrl

variable {F σ : Type}

def ProxyItem.forget (item : ProxyItem F) : ProxyItem F := { item with previous := none }

namespace Proxy

variable {proxy : Proxy F σ}

/-- What the component accepts, in terms of the registry's own items. -/
structure Schema (proxy : Proxy F σ) : Prop where
  online : ∀ high, proxy.component.accepts kOnlinePin (.bit high) = true
  distinct : (proxy.items.map ProxyItem.suffix).Nodup
  client : ∀ item ∈ proxy.items, item.clientWritable = true →
    item.suffix ≠ kOnlinePin ∧
      ∀ value, value.type = item.type → proxy.component.accepts item.suffix value = true
  disconnect : ∀ item ∈ proxy.items, ∀ value, item.disconnectValue = some value →
    item.clientWritable = true ∧ value.type = item.type

structure Inv (proxy : Proxy F σ) : Prop where
  schema : proxy.Schema
  failSafe : proxy.FailSafe
  begun : proxy.attachedAt ≤ proxy.component.writes.length

def wrote (proxy : Proxy F σ) (more : List (HalName × HalAdapterValue F)) : Proxy F σ :=
  { proxy with
    component := { proxy.component with writes := proxy.component.writes ++ more } }

variable {suffix : HalName} {value : HalAdapterValue F}

theorem put_eq (h : proxy.component.accepts suffix value = true) :
    proxy.put suffix value = proxy.wrote [(suffix, value)] := by
  unfold put wrote
  rw [HalComponent.write_accepted h]

theorem wrote_wrote (proxy : Proxy F σ) (first second : List (HalName × HalAdapterValue F)) :
    (proxy.wrote first).wrote second = proxy.wrote (first ++ second) := by
  unfold wrote
  rw [List.append_assoc]

/-- Items that differ in what was last read of them come from the same schema. -/
def SameItems (items items' : List (ProxyItem F)) : Prop :=
  items'.map ProxyItem.forget = items.map ProxyItem.forget

variable {items : List (ProxyItem F)} {proxy' : Proxy F σ}

theorem SameItems.exists {items' : List (ProxyItem F)} (h : SameItems items items')
    {item' : ProxyItem F} (hitem' : item' ∈ items') :
    ∃ item ∈ items, item.suffix = item'.suffix ∧ item.type = item'.type ∧
      item.clientWritable = item'.clientWritable ∧
        item.disconnectValue = item'.disconnectValue := by
  have hmem : item'.forget ∈ items.map ProxyItem.forget := h ▸ List.mem_map_of_mem hitem'
  obtain ⟨item, hitem, heq⟩ := List.mem_map.mp hmem
  simp only [ProxyItem.forget, ProxyItem.mk.injEq] at heq
  obtain ⟨hsuffix, -, htype, -, hclient, -, hdisconnect, -⟩ := heq
  exact ⟨item, hitem, hsuffix, htype, hclient, hdisconnect⟩

theorem SameItems.of_map {f : ProxyItem F → ProxyItem F}
    (h : ∀ item, (f item).forget = item.forget) : SameItems items (items.map f) := by
  unfold SameItems
  rw [List.map_map]
  exact List.map_congr_left fun item _ => h item

theorem Schema.congr (h : proxy.Schema) (hitems : SameItems proxy.items proxy'.items)
    (hcomponent : proxy'.component.items = proxy.component.items) : proxy'.Schema := by
  have haccepts := HalComponent.accepts_congr hcomponent
  have hsuffixes : proxy'.items.map ProxyItem.suffix = proxy.items.map ProxyItem.suffix := by
    have hforget := congrArg (List.map ProxyItem.suffix) hitems
    rwa [List.map_map, List.map_map] at hforget
  refine ⟨fun high => (haccepts _ _).trans (h.online high), hsuffixes ▸ h.distinct, ?_, ?_⟩
  · intro item' hitem' hwritable
    obtain ⟨item, hitem, hsuffix, htype, hclient, -⟩ := hitems.exists hitem'
    obtain ⟨honline, hall⟩ := h.client item hitem (hclient.trans hwritable)
    rw [hsuffix] at honline hall
    exact ⟨honline, fun value hvalue => (haccepts _ _).trans (hall value (hvalue.trans htype.symm))⟩
  · intro item' hitem' value hvalue
    obtain ⟨item, hitem, -, htype, hclient, hdisconnect⟩ := hitems.exists hitem'
    rw [← hclient, ← htype]
    exact h.disconnect item hitem value (hdisconnect.trans hvalue)

theorem Inv.congr (h : proxy.Inv) (hitems : SameItems proxy.items proxy'.items)
    (hcomponent : proxy'.component = proxy.component) (hattached : proxy'.attached = proxy.attached)
    (hactive : proxy'.active = proxy.active) (hbegun : proxy'.attachedAt = proxy.attachedAt) :
    proxy'.Inv := by
  refine ⟨h.schema.congr hitems (congrArg HalComponent.items hcomponent), ⟨?_, ?_, ?_⟩, ?_⟩
  · rw [hcomponent, hattached, hactive]
    exact h.failSafe.online_high
  · rw [hcomponent, hattached, hactive, hbegun]
    intro htrue
    refine ⟨(h.failSafe.active_complete htrue).1, fun item' hitem' hwritable => ?_⟩
    obtain ⟨item, hitem, hsuffix, htype, hclient, -⟩ := hitems.exists hitem'
    rw [← hsuffix, ← htype]
    exact (h.failSafe.active_complete htrue).2 item hitem (hclient.trans hwritable)
  · rw [hcomponent, hattached]
    intro hfalse
    refine ⟨(h.failSafe.disconnected hfalse).1, fun item' hitem' value hvalue => ?_⟩
    obtain ⟨item, hitem, hsuffix, -, -, hdisconnect⟩ := hitems.exists hitem'
    rw [← hsuffix]
    exact (h.failSafe.disconnected hfalse).2 item hitem value (hdisconnect.trans hvalue)
  · rw [hcomponent, hbegun]
    exact h.begun

def disconnectWrites (items : List (ProxyItem F)) : List (HalName × HalAdapterValue F) :=
  items.filterMap fun item => item.disconnectValue.map fun value => (item.suffix, value)

theorem disconnect_fold (items : List (ProxyItem F)) (proxy : Proxy F σ)
    (h : ∀ item ∈ items, ∀ value, item.disconnectValue = some value →
      proxy.component.accepts item.suffix value = true) :
    items.foldl disconnectItem proxy = proxy.wrote (disconnectWrites items) := by
  induction items generalizing proxy with
  | nil => simp [disconnectWrites, Proxy.wrote]
  | cons item items ih =>
    have hrest : ∀ other ∈ items, ∀ value, other.disconnectValue = some value →
        proxy.component.accepts other.suffix value = true :=
      fun other hother => h other (List.mem_cons_of_mem _ hother)
    rw [List.foldl_cons, disconnectItem]
    cases hvalue : item.disconnectValue with
    | none =>
      rw [ih proxy hrest]
      simp [disconnectWrites, hvalue]
    | some value =>
      dsimp only
      rw [put_eq (h item List.mem_cons_self value hvalue),
        ih (proxy.wrote [(item.suffix, value)]) hrest, wrote_wrote]
      simp [disconnectWrites, hvalue]

theorem detached_eq (h : proxy.Schema) : proxy.detached =
      { proxy.wrote ((kOnlinePin, .bit false) :: disconnectWrites proxy.items) with
        active := false, attached := false, callbacks := none } := by
  have haccepts : ∀ item ∈ proxy.items, ∀ value, item.disconnectValue = some value →
      proxy.component.accepts item.suffix value = true := by
    intro item hitem value hvalue
    obtain ⟨hwritable, htype⟩ := h.disconnect item hitem value hvalue
    exact (h.client item hitem hwritable).2 value htype
  unfold detached applyDisconnect
  rw [put_eq (h.online false), disconnect_fold]
  · simp [Proxy.wrote]
  · exact haccepts

theorem disconnectWrites_mem : (suffix, value) ∈ disconnectWrites items ↔
      ∃ item ∈ items, item.suffix = suffix ∧ item.disconnectValue = some value := by
  unfold disconnectWrites
  simp only [List.mem_filterMap, Option.map_eq_some_iff, Prod.mk.injEq]
  constructor
  · rintro ⟨item, hitem, value', hvalue, rfl, rfl⟩
    exact ⟨item, hitem, rfl, hvalue⟩
  · rintro ⟨item, hitem, rfl, hvalue⟩
    exact ⟨item, hitem, value, hvalue, rfl, rfl⟩

theorem disconnectWrites_distinct (h : (items.map ProxyItem.suffix).Nodup) :
    ((disconnectWrites items).map Prod.fst).Nodup := by
  refine h.sublist ?_
  unfold disconnectWrites
  induction items with
  | nil => exact List.Sublist.refl _
  | cons item items ih =>
    have htail := ih (List.nodup_cons.mp h).2
    cases hvalue : item.disconnectValue with
    | none => simpa [hvalue] using htail.cons item.suffix
    | some value => simpa [hvalue] using htail.cons_cons item.suffix

theorem Inv.detached (h : proxy.Inv) : proxy.detached.Inv := by
  rw [detached_eq h.schema]
  have honline : kOnlinePin ∉ (disconnectWrites proxy.items).map Prod.fst := by
    intro hmem
    obtain ⟨⟨suffix, value⟩, hwrite, hsuffix⟩ := List.mem_map.mp hmem
    obtain ⟨item, hitem, rfl, hvalue⟩ := disconnectWrites_mem.mp hwrite
    have hwritable := (h.schema.disconnect item hitem value hvalue).1
    exact (h.schema.client item hitem hwritable).1 hsuffix
  have hdistinct : (((kOnlinePin, HalAdapterValue.bit false) ::
      disconnectWrites proxy.items).map Prod.fst).Nodup :=
    List.nodup_cons.mpr ⟨honline, disconnectWrites_distinct h.schema.distinct⟩
  have hlast : ∀ {suffix value}, (suffix, value) ∈ (kOnlinePin, HalAdapterValue.bit false) ::
      disconnectWrites proxy.items →
      (proxy.wrote ((kOnlinePin, .bit false) ::
        disconnectWrites proxy.items)).component.lastWritten suffix = some value := by
    intro suffix value hmem
    unfold Proxy.wrote
    rw [HalComponent.lastWritten_append, HalComponent.lastWritten_mem _ hdistinct hmem, Option.some_or]
  refine ⟨h.schema.congr rfl rfl, ⟨fun hhigh => ?_, nofun, fun _ => ⟨hlast List.mem_cons_self, ?_⟩⟩, ?_⟩
  · rw [hlast List.mem_cons_self] at hhigh
    cases hhigh
  · intro item hitem value hvalue
    exact hlast (List.mem_cons_of_mem _ (disconnectWrites_mem.mpr ⟨item, hitem, rfl, hvalue⟩))
  · exact h.begun.trans (by simp [Proxy.wrote])

def valueWrites (values : List (ProxyItem F × HalAdapterValue F)) :
    List (HalName × HalAdapterValue F) :=
  values.map fun entry => (entry.1.suffix, entry.2)

theorem applyValues_eq (values : List (ProxyItem F × HalAdapterValue F)) (proxy : Proxy F σ)
    (h : ∀ entry ∈ values, proxy.component.accepts entry.1.suffix entry.2 = true) :
    proxy.applyValues values = (proxy.wrote (valueWrites values), true) := by
  induction values generalizing proxy with
  | nil => simp [applyValues, valueWrites, Proxy.wrote]
  | cons entry values ih =>
    obtain ⟨item, value⟩ := entry
    have hfirst := h (item, value) List.mem_cons_self
    unfold applyValues
    rw [HalComponent.write_accepted hfirst, if_pos rfl, put_eq hfirst,
      ih (proxy.wrote [(item.suffix, value)]) fun entry hentry =>
        h entry (List.mem_cons_of_mem _ hentry), wrote_wrote]
    rfl

def ClientValue (proxy : Proxy F σ) (entry : ProxyItem F × HalAdapterValue F) : Prop :=
  entry.1 ∈ proxy.items ∧ entry.1.clientWritable = true ∧ entry.2.type = entry.1.type

theorem findItem_mem {ref : HalItemRef} {item : ProxyItem F} (h : proxy.findItem ref = some item) :
    item ∈ proxy.items :=
  List.mem_of_find?_eq_some h

variable {decoded : List (ProxyItem F × HalAdapterValue F)} {seen : List HalName}
  {updates values : List (ComponentValue F)} {complete : Bool} {status : GrpcStatus}

theorem decodeUpdates_ok (h : proxy.decodeUpdates seen updates = .ok decoded) :
    (decoded.map fun entry => entry.1.suffix).Nodup ∧
      ∀ entry ∈ decoded, proxy.ClientValue entry ∧ entry.1.suffix ∉ seen := by
  induction updates generalizing seen decoded with
  | nil =>
    cases h
    exact ⟨List.nodup_nil, by simp⟩
  | cons update updates ih =>
    unfold decodeUpdates at h
    split at h
    next => cases h
    next item hitem =>
      split_ifs at h with hwritable hseen
      split at h
      next => cases h
      next value hvalue =>
        split at h
        next => cases h
        next rest hrest =>
          cases h
          obtain ⟨hnodup, hall⟩ := ih hrest
          refine ⟨?_, ?_⟩
          · rw [List.map_cons, List.nodup_cons]
            refine ⟨fun hmem => ?_, hnodup⟩
            obtain ⟨other, hother, hsuffix⟩ := List.mem_map.mp hmem
            exact (hall other hother).2 (hsuffix ▸ List.mem_cons_self)
          · intro entry hentry
            rcases List.mem_cons.mp hentry with rfl | hentry
            · exact ⟨⟨findItem_mem hitem, Bool.eq_true_of_not_eq_false hwritable,
                typedValue_type hvalue⟩, hseen⟩
            · obtain ⟨hclient, hfresh⟩ := hall entry hentry
              exact ⟨hclient, fun hmem => hfresh (List.mem_cons_of_mem _ hmem)⟩

/-- As many distinct client items as there are client items are all of them. -/
theorem decodeValues_ok (h : proxy.decodeValues values complete = .ok decoded) :
    (∀ entry ∈ decoded, proxy.ClientValue entry) ∧
      (complete = true → ∀ item ∈ proxy.items, item.clientWritable = true →
        ∃ value, value.type = item.type ∧ (item.suffix, value) ∈ valueWrites decoded) := by
  unfold decodeValues at h
  split at h
  next => cases h
  next decoded' hdecoded =>
    split_ifs at h with hcomplete
    obtain rfl := Except.ok.inj h
    obtain ⟨hnodup, hall⟩ := decodeUpdates_ok hdecoded
    refine ⟨fun entry hentry => (hall entry hentry).1, fun htrue item hitem hwritable => ?_⟩
    have hlength : decoded'.length = proxy.items.countP ProxyItem.clientWritable := by
      by_contra hne
      exact hcomplete ⟨htrue, hne⟩
    have hitems : (decoded'.map Prod.fst).Nodup := by
      apply List.Nodup.of_map ProxyItem.suffix
      rwa [List.map_map]
    have hsubset : decoded'.map Prod.fst ⊆ proxy.items.filter ProxyItem.clientWritable := by
      intro other hother
      obtain ⟨entry, hentry, rfl⟩ := List.mem_map.mp hother
      obtain ⟨hmem, hclient, -⟩ := (hall entry hentry).1
      exact List.mem_filter.mpr ⟨hmem, hclient⟩
    have hperm : (decoded'.map Prod.fst).Perm (proxy.items.filter ProxyItem.clientWritable) := by
      apply (List.subperm_of_subset hitems hsubset).perm_of_length_le
      rw [List.length_map, hlength, List.countP_eq_length_filter]
    have hmem := hperm.mem_iff.mpr (List.mem_filter.mpr ⟨hitem, hwritable⟩)
    obtain ⟨entry, hentry, rfl⟩ := List.mem_map.mp hmem
    exact ⟨entry.2, (hall entry hentry).1.2.2, List.mem_map.mpr ⟨entry, hentry, rfl⟩⟩

theorem Inv.client_accepts (h : proxy.Inv) {entry : ProxyItem F × HalAdapterValue F}
    (hentry : proxy.ClientValue entry) :
    proxy.component.accepts entry.1.suffix entry.2 = true :=
  (h.schema.client entry.1 hentry.1 hentry.2.1).2 entry.2 hentry.2.2

theorem Inv.not_online (h : proxy.Inv) (hdecoded : ∀ entry ∈ decoded, proxy.ClientValue entry) :
    kOnlinePin ∉ (valueWrites decoded).map Prod.fst := by
  intro hmem
  obtain ⟨write, hwrite, hsuffix⟩ := List.mem_map.mp hmem
  obtain ⟨entry, hentry, rfl⟩ := List.mem_map.mp hwrite
  obtain ⟨hitem, hwritable, -⟩ := hdecoded entry hentry
  exact (h.schema.client entry.1 hitem hwritable).1 hsuffix

theorem Inv.wrote (h : proxy.Inv) (hattached : proxy.attached = true)
    {more : List (HalName × HalAdapterValue F)} (hmore : kOnlinePin ∉ more.map Prod.fst) :
    (proxy.wrote more).Inv := by
  refine ⟨h.schema.congr rfl rfl, ⟨fun hhigh => h.failSafe.online_high ?_, fun hactive => ?_,
    fun hfalse => absurd hfalse (by simp [Proxy.wrote, hattached])⟩, ?_⟩
  · unfold Proxy.wrote at hhigh
    rwa [HalComponent.lastWritten_append, HalComponent.lastWritten_none _ hmore, Option.none_or] at hhigh
  · obtain ⟨hattached, hall⟩ := h.failSafe.active_complete hactive
    refine ⟨hattached, fun item hitem hwritable => ?_⟩
    obtain ⟨value, htype, hmem⟩ := hall item hitem hwritable
    refine ⟨value, htype, ?_⟩
    unfold Proxy.wrote
    rw [List.drop_append_of_le_length h.begun]
    exact List.mem_append_left _ hmem
  · exact h.begun.trans (by simp [Proxy.wrote])

theorem decodeUpdates_error (h : proxy.decodeUpdates seen updates = .error status) : status.code ≠ .ok := by
  induction updates generalizing seen with
  | nil => cases h
  | cons update updates ih =>
    unfold decodeUpdates at h
    split at h
    next =>
      cases h
      nofun
    next item hitem =>
      split_ifs at h
      · cases h
        nofun
      · cases h
        nofun
      · split at h
        next =>
          cases h
          nofun
        next value hvalue =>
          split at h
          next status' hstatus =>
            cases h
            exact ih hstatus
          next => cases h

theorem decodeValues_error
    (h : proxy.decodeValues values complete = .error status) : status.code ≠ .ok := by
  unfold decodeValues at h
  split at h
  next status' hstatus =>
    cases h
    exact decodeUpdates_error hstatus
  next =>
    split_ifs at h
    cases h
    nofun

/-- What a message can do to the proxy: it is refused and nothing is changed, or the values decode and
the proxy is `done decoded`. -/
inductive Answered (proxy : Proxy F σ) (values : List (ComponentValue F)) (complete : Bool)
    (done : List (ProxyItem F × HalAdapterValue F) → Proxy F σ) (response : HalComponentServerMessage F) :
    Proxy F σ × RemoteComponentResult F → Prop
  | refused (status : GrpcStatus) : status.code ≠ .ok →
      Answered proxy values complete done response
        (proxy, { proxyId := proxy.id, generation := proxy.generation, status })
  | accepted (decoded : List (ProxyItem F × HalAdapterValue F)) :
      proxy.decodeValues values complete = .ok decoded →
      Answered proxy values complete done response
        (done decoded, { proxyId := proxy.id, generation := proxy.generation, response := some response })

section

variable (h : proxy.Inv) (now : ℤ) (values : List (ComponentValue F))

include h

/-- An activation writes a value to every item of the client and then `online` high. -/
theorem Inv.activate_answered (generation : ℕ) :
    proxy.Answered values true
      (fun decoded =>
        { proxy.wrote (valueWrites decoded ++ [(kOnlinePin, .bit true)]) with
          active := true, lastHeartbeat := now })
      (.active proxy.generation) (proxy.activate now generation values) := by
  unfold Proxy.activate
  split_ifs
  · exact .refused _ nofun
  · split
    next status hstatus => exact .refused status (decodeValues_error hstatus)
    next decoded hdecoded =>
      have hall := (decodeValues_ok hdecoded).1
      have honline : (proxy.wrote (valueWrites decoded)).component.accepts kOnlinePin (.bit true) = true :=
        h.schema.online true
      rw [applyValues_eq decoded proxy fun entry hentry => h.client_accepts (hall entry hentry)]
      dsimp only
      rw [put_eq honline, wrote_wrote]
      exact .accepted decoded hdecoded

/-- An update writes the listed values. It is accepted with the next sequence only. -/
theorem Inv.update_answered (generation sequence : ℕ) :
    proxy.Answered values false
      (fun decoded =>
        { proxy.wrote (valueWrites decoded) with
          clientSequence := proxy.clientSequence + 1, lastHeartbeat := now })
      (.updateAck proxy.generation (proxy.clientSequence + 1))
      (proxy.update now generation sequence values) := by
  unfold Proxy.update
  split_ifs with hstale hsequence
  · exact .refused _ nofun
  · exact .refused _ nofun
  · split
    next status hstatus => exact .refused status (decodeValues_error hstatus)
    next decoded hdecoded =>
      have hall := (decodeValues_ok hdecoded).1
      rw [applyValues_eq decoded proxy fun entry hentry => h.client_accepts (hall entry hentry),
        Decidable.of_not_not hsequence]
      exact .accepted decoded hdecoded

theorem Inv.activate (hattached : proxy.attached = true) (generation : ℕ) :
    (proxy.activate now generation values).1.Inv := by
  generalize hanswer : proxy.activate now generation values = answer
  have hanswered := hanswer ▸ h.activate_answered now values generation
  cases hanswered with
  | refused status _ => exact h
  | accepted decoded hdecoded =>
    obtain ⟨hall, hcomplete⟩ := decodeValues_ok hdecoded
    refine ⟨h.schema.congr rfl rfl, ⟨fun _ => ⟨hattached, rfl⟩, fun _ => ⟨hattached, ?_⟩,
      fun hfalse => ?_⟩, h.begun.trans (by simp [Proxy.wrote])⟩
    · intro item hitem hwritable
      obtain ⟨value, htype, hmem⟩ := hcomplete rfl item hitem hwritable
      refine ⟨value, htype, ?_⟩
      dsimp only [Proxy.wrote]
      rw [List.drop_append_of_le_length h.begun]
      exact List.mem_append_right _ (List.mem_append_left _ hmem)
    · cases hattached.symm.trans hfalse

theorem Inv.update (hattached : proxy.attached = true) (generation sequence : ℕ) :
    (proxy.update now generation sequence values).1.Inv := by
  generalize hanswer : proxy.update now generation sequence values = answer
  have hanswered := hanswer ▸ h.update_answered now values generation sequence
  cases hanswered with
  | refused status _ => exact h
  | accepted decoded hdecoded =>
    have hall := (decodeValues_ok hdecoded).1
    exact (h.wrote hattached (h.not_online hall)).congr rfl rfl rfl rfl rfl

end

theorem Inv.heartbeat (h : proxy.Inv) (now : ℤ) (generation : ℕ) :
    (proxy.heartbeat now generation).1.Inv := by
  unfold Proxy.heartbeat
  split_ifs
  · exact h
  · exact h.congr rfl rfl rfl rfl rfl

theorem Inv.takeOver (h : proxy.Inv) (now : ℤ) (stream : σ) : (proxy.takeOver now stream).Inv := by
  unfold Proxy.takeOver
  rw [put_eq]
  rotate_left
  · exact h.schema.online false
  refine ⟨h.schema.congr rfl rfl, ⟨fun hhigh => ?_, nofun, nofun⟩, by simp [Proxy.wrote]⟩
  dsimp only [Proxy.wrote] at hhigh
  rw [HalComponent.lastWritten_append] at hhigh
  simp [HalComponent.lastWritten] at hhigh

theorem Inv.encodeSnapshot (h : proxy.Inv) (config : RegistryConfig) (calls : HalCalls F)
    (includeToken : Bool) : (proxy.encodeSnapshot config calls includeToken).1.Inv := by
  refine h.congr (SameItems.of_map fun item => ?_) rfl rfl rfl rfl
  split <;> rfl

theorem Inv.sample [BEq F] (h : proxy.Inv) (config : RegistryConfig) (calls : HalCalls F) (now : ℤ) :
    (proxy.sample config calls now).1.Inv := by
  have hitems : SameItems proxy.items (proxy.rememberValues calls) := by
    apply SameItems.of_map
    intro item
    split_ifs
    · rfl
    · split
      · split_ifs <;> rfl
      · rfl
      · rfl
  unfold Proxy.sample
  dsimp only
  split_ifs
  · exact h
  · exact h.detached
  · exact h
  · exact h.congr hitems rfl rfl rfl rfl
  · exact h.congr hitems rfl rfl rfl rfl

end Proxy

theorem ItemDefinition.direction_of_writable {definition : ItemDefinition F}
    (h : definition.writable = true) : definition.direction ≠ .pin .input := by
  unfold ItemDefinition.writable at h
  intro hinput
  rw [hinput] at h
  cases h

theorem newProxy_suffixes (registry : Registry F σ) (config : RegistryConfig)
    (inputs : RegistryInputs F) (create : HalComponentCreate F) (component : HalComponent F)
    (namePrefix : HalName) (definitions : List (ItemDefinition F)) (stream : σ) :
    (registry.newProxy config inputs create component namePrefix definitions stream).items.map
      ProxyItem.suffix = definitions.map ItemDefinition.name ++ [kOnlinePin] := by
  simp [Registry.newProxy, ItemDefinition.proxyItem, onlineItem, Function.comp_def]

theorem newProxy_inv {registry : Registry F σ} {config : RegistryConfig} {inputs : RegistryInputs F}
    {create : HalComponentCreate F} {component : HalComponent F} {namePrefix : HalName}
    {definitions : List (ItemDefinition F)} {slab : HalAllocationSlab}
    (hschema : schemaDefinitions create = .ok definitions)
    (hbuild : registry.buildComponent config inputs.calls create namePrefix definitions =
      .ok (component, slab)) (stream : σ) :
    (registry.newProxy config inputs create component namePrefix definitions stream).Inv := by
  obtain ⟨hnames, hall⟩ := schemaDefinitions_ok hschema
  obtain ⟨hbuilt, opened, hitems, hempty, hwrites⟩ := buildComponent_ok hbuild
  have hdistinct := hbuilt.distinct hnames fun definition hmem => (hall definition hmem).1
  have honline : ∀ high : Bool, component.accepts kOnlinePin (.bit high) = true := fun high =>
    hbuilt.accepts hdistinct (List.mem_append_right _ (List.mem_singleton_self _)) rfl (by decide)
  have hopened : opened.accepts kOnlinePin (.bit false) = true :=
    (HalComponent.accepts_congr hitems _ _).trans (honline false)
  rw [HalComponent.writes_write hopened, hempty, List.nil_append] at hwrites
  refine ⟨⟨honline, ?_, ?_, ?_⟩, ⟨fun hhigh => ?_, nofun, nofun⟩, Nat.le_refl _⟩
  · rw [newProxy_suffixes, List.nodup_append']
    refine ⟨hnames, List.nodup_singleton _, fun name hname hmem => ?_⟩
    obtain ⟨definition, hdefinition, rfl⟩ := List.mem_map.mp hname
    exact (hall definition hdefinition).1 (List.mem_singleton.mp hmem)
  · intro item hitem hwritable
    rcases List.mem_append.mp hitem with hitem | hitem
    · obtain ⟨definition, hdefinition, rfl⟩ := List.mem_map.mp hitem
      refine ⟨(hall definition hdefinition).1, fun value hvalue => ?_⟩
      apply hbuilt.accepts hdistinct (List.mem_append_left _ (List.mem_map_of_mem hdefinition)) hvalue
      exact ItemDefinition.direction_of_writable hwritable
    · rw [List.mem_singleton.mp hitem] at hwritable
      cases hwritable
  · intro item hitem value hvalue
    rcases List.mem_append.mp hitem with hitem | hitem
    · obtain ⟨definition, hdefinition, rfl⟩ := List.mem_map.mp hitem
      exact (hall definition hdefinition).2 value hvalue
    · rw [List.mem_singleton.mp hitem] at hvalue
      cases hvalue
  · dsimp only [Registry.newProxy] at hhigh
    unfold HalComponent.lastWritten at hhigh
    rw [hwrites] at hhigh
    cases hhigh

end LinuxcncCtrl
