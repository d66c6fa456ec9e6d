import LinuxcncCtrl.Sanity.RemoteAttachment

/-! What the registry owns of the slab, as a ledger: the slots and the item count of every retained proxy, and
the free slots. Creations and closes move slots; a message on an attached stream leaves the ledger alone. -/

namespace LinuxcncCtrl

variable {F σ : Type}

namespace HalComponent

variable {component component' : HalComponent F} {slab slab' : HalAllocationSlab}

def slots (component : HalComponent F) : List ℕ := component.items.map HalComponentItem.slabSlot

variable {calls : HalCalls F} {halNameLen : ℕ} {suffix : HalName}

theorem addItem_slots {type : HalAdapterType} {direction : ItemDirection}
    (h : component.addItem halNameLen calls slab suffix type direction = .ok (some (slab', component'))) :
    slab'.capacity = slab.capacity ∧
      ∃ slot, slab.free = slot :: slab'.free ∧ component'.slots = component.slots ++ [slot] := by
  unfold HalComponent.addItem at h
  dsimp only at h
  split at h
  · cases h
  · split at h
    · cases h
    · split at h
      next => cases h
      next slot rest hacquire =>
        split at h
        · cases h
        · cases h
          unfold HalAllocationSlab.acquire at hacquire
          split at hacquire
          next => cases hacquire
          next index free hfree =>
            cases hacquire
            exact ⟨rfl, slot, hfree, List.map_append⟩

theorem addDefinitions_slots {definitions : List (ItemDefinition F)} {failure : Option CreateFailure}
    (h : addDefinitions halNameLen calls slab component definitions = (slab', component', failure)) :
    slab'.capacity = slab.capacity ∧
      ∃ taken, slab.free = taken ++ slab'.free ∧ component'.slots = component.slots ++ taken ∧
        (failure = none → taken.length = definitions.length) := by
  induction definitions generalizing slab component with
  | nil =>
    cases h
    exact ⟨rfl, [], rfl, (List.append_nil _).symm, fun _ => rfl⟩
  | cons definition definitions ih =>
    unfold addDefinitions at h
    split at h
    next =>
      cases h
      exact ⟨rfl, [], rfl, (List.append_nil _).symm, nofun⟩
    next =>
      cases h
      exact ⟨rfl, [], rfl, (List.append_nil _).symm, nofun⟩
    next slab₁ component₁ hadd =>
      obtain ⟨hcapacity, slot, hfree, hslots⟩ := addItem_slots hadd
      obtain ⟨hcapacity', taken, hfree', hslots', hlength⟩ := ih h
      refine ⟨hcapacity'.trans hcapacity, slot :: taken, ?_, ?_, fun hnone => ?_⟩
      · rw [hfree, hfree', List.cons_append]
      · rw [hslots', hslots, List.append_assoc, List.singleton_append]
      · rw [List.length_cons, List.length_cons, hlength hnone]

theorem close_free (component : HalComponent F) (slab : HalAllocationSlab)
    (hslots : ∀ slot ∈ component.slots, slot < slab.capacity) :
    (component.close slab).capacity = slab.capacity ∧
      ((component.close slab).free : Multiset ℕ) = component.slots + slab.free := by
  unfold close slots at *
  generalize component.items = items at *
  induction items generalizing slab with
  | nil => exact ⟨rfl, rfl⟩
  | cons item items ih =>
    have hrelease : slab.release item.slabSlot = { slab with free := item.slabSlot :: slab.free } :=
      if_neg (Nat.not_le_of_lt (hslots _ List.mem_cons_self))
    rw [List.foldl_cons, hrelease]
    obtain ⟨hcapacity, hfree⟩ := ih { slab with free := item.slabSlot :: slab.free } fun slot hslot =>
      hslots slot (List.mem_cons_of_mem _ hslot)
    refine ⟨hcapacity, hfree.trans ?_⟩
    rw [List.map_cons, ← Multiset.cons_coe, ← Multiset.cons_coe, Multiset.add_cons, Multiset.cons_add]

theorem openComponent_slots {name namePrefix : HalName}
    (h : openComponent halNameLen calls name namePrefix = .ok component) : component.slots = [] := by
  unfold openComponent at h
  dsimp only at h
  split_ifs at h <;> (cases h; rfl)

theorem setReady_slots {value : HalAdapterValue F}
    (h : (component.write suffix value).1.setReady calls = .ok component') :
    component'.slots = component.slots := by
  unfold setReady at h
  split_ifs at h
  cases h
  exact congrArg (List.map HalComponentItem.slabSlot) (write_items component suffix value)

theorem close_restores {initial : HalAllocationSlab} (hcapacity : slab.capacity = initial.capacity)
    (hfree : initial.free = component.slots ++ slab.free)
    (hbounded : ∀ slot ∈ initial.free, slot < initial.capacity) :
    (component.close slab).capacity = initial.capacity ∧
      ((component.close slab).free : Multiset ℕ) = initial.free := by
  have hslots : ∀ slot ∈ component.slots, slot < slab.capacity := by
    intro slot hslot
    rw [hcapacity]
    apply hbounded
    rw [hfree]
    exact List.mem_append_left _ hslot
  obtain ⟨hkept, hback⟩ := component.close_free slab hslots
  refine ⟨hkept.trans hcapacity, hback.trans ?_⟩
  rw [hfree, Multiset.coe_add]

end HalComponent

namespace Proxy

variable {proxy proxy' proxy'' : Proxy F σ}

structure Keeps (proxy proxy' : Proxy F σ) : Prop where
  id : proxy'.id = proxy.id
  slots : proxy'.component.slots = proxy.component.slots
  count : proxy'.items.length = proxy.items.length

theorem Keeps.refl (proxy : Proxy F σ) : proxy.Keeps proxy := ⟨rfl, rfl, rfl⟩

theorem Keeps.trans (h : proxy.Keeps proxy') (h' : proxy'.Keeps proxy'') : proxy.Keeps proxy'' :=
  ⟨h'.id.trans h.id, h'.slots.trans h.slots, h'.count.trans h.count⟩

theorem Edited.keeps (h : proxy.Edited proxy') : proxy.Keeps proxy' := by
  refine ⟨h.follows.id, ?_, congrArg List.length h.framed.1⟩
  unfold HalComponent.slots
  rw [h.framed.2]

theorem keeps_encodeSnapshot (proxy : Proxy F σ) (config : RegistryConfig) (calls : HalCalls F)
    (includeToken : Bool) : proxy.Keeps (proxy.encodeSnapshot config calls includeToken).1 :=
  ⟨rfl, rfl, List.length_map _⟩

theorem keeps_takeOver (proxy : Proxy F σ) (now : ℤ) (stream : σ) : proxy.Keeps (proxy.takeOver now stream) := by
  have hput := edited_put
    { proxy with
      attached := true
      active := false
      generation := proxy.generation + 1
      clientSequence := 0
      lastHeartbeat := now
      callbacks := some stream
      attachedAt := proxy.component.writes.length } kOnlinePin (.bit false)
  exact { hput.keeps with }

theorem keeps_sample [BEq F] (proxy : Proxy F σ) (config : RegistryConfig) (calls : HalCalls F) (now : ℤ) :
    proxy.Keeps (proxy.sample config calls now).1 := by
  unfold Proxy.sample
  dsimp only
  split_ifs
  · exact .refl proxy
  · exact proxy.edited_detached.keeps
  · exact .refl proxy
  · exact ⟨rfl, rfl, List.length_map _⟩
  · exact ⟨rfl, rfl, List.length_map _⟩

end Proxy

namespace Registry

variable {registry : Registry F σ} {config : RegistryConfig} {calls : HalCalls F}
  {create : HalComponentCreate F} {namePrefix : HalName} {definitions : List (ItemDefinition F)}
  {component : HalComponent F} {slab : HalAllocationSlab}

/-- A component that was built took one slot for each definition and one for the managed pin. -/
theorem buildComponent_slots
    (h : registry.buildComponent config calls create namePrefix definitions = .ok (component, slab)) :
    slab.capacity = registry.slab.capacity ∧ registry.slab.free = component.slots ++ slab.free ∧
      component.slots.length = definitions.length + 1 := by
  unfold buildComponent at h
  split at h
  next => cases h
  next opened hopen =>
    have hempty := HalComponent.openComponent_slots hopen
    split at h
    next => cases h
    next slab₁ component₁ hadd =>
      obtain ⟨hcapacity₁, taken, hfree₁, hslots₁, hlength⟩ := HalComponent.addDefinitions_slots hadd
      split at h
      next => cases h
      next => cases h
      next slab₂ component₂ honline =>
        obtain ⟨hcapacity₂, slot, hfree₂, hslots₂⟩ := HalComponent.addItem_slots honline
        split at h
        next => cases h
        next ready hready =>
          split at h
          next => cases h
          next =>
            cases h
            have hslots : component.slots = taken ++ [slot] := by
              rw [hempty, List.nil_append] at hslots₁
              rw [HalComponent.setReady_slots hready, hslots₂, hslots₁]
            refine ⟨hcapacity₂.trans hcapacity₁, ?_, ?_⟩
            · rw [hfree₁, hfree₂, hslots, List.append_assoc, List.singleton_append]
            · rw [hslots, List.length_append, hlength rfl, List.length_singleton]

/-- A creation that fails leaves the slab with the free slots it had, whichever call failed. -/
theorem buildComponent_restores {failure : CreateFailure}
    (hbounded : ∀ slot ∈ registry.slab.free, slot < registry.slab.capacity)
    (h : registry.buildComponent config calls create namePrefix definitions = .error (failure, slab)) :
    slab.capacity = registry.slab.capacity ∧ (slab.free : Multiset ℕ) = registry.slab.free := by
  unfold buildComponent at h
  split at h
  next =>
    cases h
    exact ⟨rfl, rfl⟩
  next opened hopen =>
    have hempty := HalComponent.openComponent_slots hopen
    split at h
    next slab₁ component₁ failure₁ hadd =>
      cases h
      obtain ⟨hcapacity, taken, hfree, hslots, -⟩ := HalComponent.addDefinitions_slots hadd
      rw [hempty, List.nil_append] at hslots
      exact HalComponent.close_restores hcapacity (hslots ▸ hfree) hbounded
    next slab₁ component₁ hadd =>
      obtain ⟨hcapacity₁, taken, hfree₁, hslots₁, -⟩ := HalComponent.addDefinitions_slots hadd
      rw [hempty, List.nil_append] at hslots₁
      rw [← hslots₁] at hfree₁
      split at h
      next =>
        cases h
        exact HalComponent.close_restores hcapacity₁ hfree₁ hbounded
      next =>
        cases h
        exact HalComponent.close_restores hcapacity₁ hfree₁ hbounded
      next slab₂ component₂ honline =>
        obtain ⟨hcapacity₂, slot, hfree₂, hslots₂⟩ := HalComponent.addItem_slots honline
        have hcapacity := hcapacity₂.trans hcapacity₁
        have hfree : registry.slab.free = component₂.slots ++ slab₂.free := by
          rw [hfree₁, hfree₂, hslots₂, List.append_assoc, List.singleton_append]
        split at h
        next =>
          cases h
          exact HalComponent.close_restores hcapacity hfree hbounded
        next ready hready =>
          rw [← HalComponent.setReady_slots hready] at hfree
          split at h
          next =>
            cases h
            exact HalComponent.close_restores hcapacity hfree hbounded
          next => cases h

end Registry

/-- What the registry holds of the slab, without the components. `holdings` are the slots and the item
count of each retained proxy. -/
structure Ledger where
  holdings : Multiset (List ℕ × ℕ)
  retained : ℕ
  admitted : ℕ
  free : Multiset ℕ

namespace Ledger

def used (ledger : Ledger) : Multiset ℕ := (ledger.holdings.map fun held => (held.1 : Multiset ℕ)).sum

inductive Step (ledger : Ledger) : Ledger → Prop
  | kept : Step ledger ledger
  | created (slots : List ℕ) (free : Multiset ℕ) : ledger.free = slots + free →
      Step ledger
        { holdings := (slots, slots.length) ::ₘ ledger.holdings
          retained := ledger.retained + slots.length
          admitted := ledger.admitted + 1
          free }
  | destroyed (slots : List ℕ) (count : ℕ) (holdings : Multiset (List ℕ × ℕ)) :
      ledger.holdings = (slots, count) ::ₘ holdings →
      Step ledger
        { holdings
          retained := ledger.retained - count
          admitted := ledger.admitted - 1
          free := slots + ledger.free }
  | cleared :
      Step ledger
        { holdings := 0
          retained := 0
          admitted := ledger.admitted - ledger.holdings.card
          free := ledger.used + ledger.free }

/-- The three counts agree, and every slot below `capacity` is either free or in use, once. -/
structure Conserved (capacity : ℕ) (ledger : Ledger) : Prop where
  counts : ∀ held ∈ ledger.holdings, held.1.length = held.2
  retained : ledger.retained = (ledger.holdings.map Prod.snd).sum
  admitted : ledger.admitted = ledger.holdings.card
  partition : ledger.used + ledger.free = Multiset.range capacity

variable {capacity : ℕ} {ledger ledger' : Ledger}

theorem used_cons (slots : List ℕ) (count retained admitted : ℕ) (holdings : Multiset (List ℕ × ℕ))
    (free : Multiset ℕ) :
    used ⟨(slots, count) ::ₘ holdings, retained, admitted, free⟩ =
      slots + used ⟨holdings, retained, admitted, free⟩ := by
  unfold used
  rw [Multiset.map_cons, Multiset.sum_cons]

theorem Conserved.card_used (h : ledger.Conserved capacity) : ledger.used.card = ledger.retained := by
  have hsame : ledger.holdings.map (fun held => Multiset.card (held.1 : Multiset ℕ)) =
      ledger.holdings.map Prod.snd := Multiset.map_congr rfl fun held hheld => h.counts held hheld
  have hcard := Multiset.card_join (ledger.holdings.map fun held => (held.1 : Multiset ℕ))
  rw [Multiset.map_map] at hcard
  rw [h.retained, ← hsame]
  exact hcard

theorem Conserved.card_free (h : ledger.Conserved capacity) :
    ledger.retained + ledger.free.card = capacity := by
  rw [← h.card_used, ← Multiset.card_add, h.partition, Multiset.card_range]

theorem Conserved.step (h : ledger.Conserved capacity) (hstep : ledger.Step ledger') :
    ledger'.Conserved capacity := by
  obtain ⟨holdings, retained, admitted, free⟩ := ledger
  cases hstep with
  | kept => exact h
  | created slots free' hfree =>
    refine ⟨?_, ?_, ?_, ?_⟩
    · intro held hheld
      rcases Multiset.mem_cons.mp hheld with rfl | hheld
      · rfl
      · exact h.counts held hheld
    · have := h.retained
      simp only [Multiset.map_cons, Multiset.sum_cons] at this ⊢
      omega
    · exact (congrArg (· + 1) h.admitted).trans (Multiset.card_cons _ _).symm
    · have hpartition := h.partition
      rw [hfree] at hpartition
      rw [used_cons, ← hpartition, add_assoc, add_left_comm]
      rfl
  | destroyed slots count rest hholdings =>
    subst hholdings
    refine ⟨fun held hheld => h.counts held (Multiset.mem_cons_of_mem hheld), ?_, ?_, ?_⟩
    · have := h.retained
      simp only [Multiset.map_cons, Multiset.sum_cons] at this ⊢
      omega
    · have := h.admitted
      simp only [Multiset.card_cons] at this ⊢
      omega
    · have hpartition := h.partition
      rw [used_cons, add_assoc, add_left_comm] at hpartition
      exact hpartition
  | cleared =>
    refine ⟨?_, rfl, ?_, ?_⟩
    · intro held hheld
      exact absurd hheld (Multiset.notMem_zero held)
    · have := h.admitted
      simp only [Multiset.card_zero] at this ⊢
      omega
    · exact (zero_add _).trans h.partition

end Ledger

end LinuxcncCtrl
