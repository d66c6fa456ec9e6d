import LinuxcncCtrl.Proofs.RemoteComponent
import LinuxcncCtrl.Sanity.RemoteBudget

/-! The budget of remote components. Every operation on the HAL worker is a step of one ledger, and the ledger
never loses or duplicates a slot. -/

namespace LinuxcncCtrl

open Lib

variable {F σ : Type}

namespace Registry

variable {registry registry' : Registry F σ} {config : RegistryConfig} {id : HalName}
  {proxy proxy' : Proxy F σ}

/-- The slots of every item of every retained proxy. -/
def liveSlots (registry : Registry F σ) : List ℕ :=
  registry.proxies.entries.flatMap fun entry => entry.2.component.slots

def held (entry : Sigma fun _ : HalName => Proxy F σ) : List ℕ × ℕ :=
  (entry.2.component.slots, entry.2.items.length)

def ledger (registry : Registry F σ) : Ledger :=
  { holdings := registry.proxies.entries.map held
    retained := registry.retainedItemCount
    admitted := registry.admission.active
    free := registry.slab.free }

theorem ledger_used (registry : Registry F σ) : registry.ledger.used = registry.liveSlots := by
  unfold Ledger.used ledger liveSlots
  induction registry.proxies.entries with
  | nil => rfl
  | cons entry entries ih =>
    rw [List.map_cons, ← Multiset.cons_coe, Multiset.map_cons, Multiset.sum_cons, ih, List.flatMap_cons,
      ← Multiset.coe_add]
    rfl

theorem keyed_setProxy (hkeyed : registry.Keyed) (proxy : Proxy F σ) : (registry.setProxy proxy).Keyed := by
  intro id found hfound
  rw [lookup_setProxy] at hfound
  split_ifs at hfound with hid
  · cases hfound
    exact hid.symm
  · exact hkeyed id found hfound

section

variable (hlookup : registry.proxies.lookup id = some proxy)

include hlookup

/-- A retained proxy stands first, and the others are those left when it is erased. -/
theorem entries_perm : registry.proxies.entries.Perm (⟨id, proxy⟩ :: (registry.proxies.erase id).entries) := by
  have hmem : id ∈ registry.proxies.entries.keys :=
    AList.mem_keys.mp (AList.lookup_isSome.mp (by rw [hlookup, Option.isSome_some]))
  obtain ⟨other, before, after, hbefore, hentries, herase⟩ := List.exists_of_kerase hmem
  have hother : other = proxy := by
    have hin : ⟨id, other⟩ ∈ registry.proxies.entries := by
      rw [hentries]
      exact List.mem_append_right _ List.mem_cons_self
    exact Option.some.inj ((AList.mem_lookup_iff.mpr hin).symm.trans hlookup)
  subst hother
  have hafter : (registry.proxies.erase id).entries = before ++ after := herase
  rw [hafter, hentries]
  exact List.perm_middle

theorem holdings_lookup : registry.ledger.holdings =
      (proxy.component.slots, proxy.items.length) ::ₘ
        ((registry.proxies.erase id).entries.map held : Multiset (List ℕ × ℕ)) := by
  rw [Multiset.cons_coe]
  exact Multiset.coe_eq_coe.mpr ((entries_perm hlookup).map held)

/-- A message to a proxy that keeps its items leaves the ledger as it is. -/
theorem ledger_setProxy (hkeyed : registry.Keyed) (hkeeps : proxy.Keeps proxy') :
    (registry.setProxy proxy').ledger = registry.ledger := by
  have hid : proxy'.id = id := hkeeps.id.trans (hkeyed id proxy hlookup)
  have hholdings : (registry.setProxy proxy').ledger.holdings = registry.ledger.holdings := by
    rw [holdings_lookup hlookup, ← hkeeps.slots, ← hkeeps.count, ← hid]
    rfl
  exact congrArg (fun holdings => { registry.ledger with holdings }) hholdings

end

structure Accounted (registry registry' : Registry F σ) : Prop where
  keyed : registry'.Keyed
  capacity : registry'.slab.capacity = registry.slab.capacity
  step : registry.ledger.Step registry'.ledger

theorem Accounted.refl (hkeyed : registry.Keyed) : registry.Accounted registry := ⟨hkeyed, rfl, .kept⟩

theorem accounted_setProxy (hkeyed : registry.Keyed) (hlookup : registry.proxies.lookup id = some proxy)
    (hkeeps : proxy.Keeps proxy') : registry.Accounted (registry.setProxy proxy') := by
  refine ⟨keyed_setProxy hkeyed proxy', rfl, ?_⟩
  rw [ledger_setProxy hlookup hkeyed hkeeps]
  exact .kept

theorem accounted_detach (hkeyed : registry.Keyed) (id : HalName) (generation : ℕ) :
    registry.Accounted (registry.detach id generation) := by
  obtain hsame | ⟨proxy, hlookup, hset⟩ := registry.detach_cases id generation
  · rw [hsame]
    exact .refl hkeyed
  · rw [hset]
    exact accounted_setProxy hkeyed hlookup proxy.edited_detached.keeps

theorem ledger_sampleIds [BEq F] (calls : HalCalls F) (now : ℤ) (ids : List HalName)
    (hkeyed : registry.Keyed) :
    (sampleIds config calls now ids registry).1.Keyed ∧
      (sampleIds config calls now ids registry).1.slab = registry.slab ∧
      (sampleIds config calls now ids registry).1.ledger = registry.ledger := by
  induction ids generalizing registry with
  | nil => exact ⟨hkeyed, rfl, rfl⟩
  | cons id ids ih =>
    unfold sampleIds
    split
    next => exact ih hkeyed
    next proxy hlookup =>
      have hledger := ledger_setProxy hlookup hkeyed (Proxy.keeps_sample proxy config calls now)
      obtain ⟨hkeyed', hslab, hledger'⟩ := ih (keyed_setProxy hkeyed (proxy.sample config calls now).1)
      exact ⟨hkeyed', hslab, hledger'.trans hledger⟩

theorem acquire_active {counter counter' : AdmissionCounter} (h : counter.acquire = some counter') :
    counter'.active = counter.active + 1 := by
  unfold AdmissionCounter.acquire at h
  split_ifs at h
  cases h
  rfl

variable {slab : HalAllocationSlab} {inputs : RegistryInputs F} {action : RegistryAction F σ}

section

variable (hkeyed : registry.Keyed)

include hkeyed

/-- A retained proxy is a new holding of the slots that its component took. -/
theorem accounted_created {admission : AdmissionCounter} {created : ℕ} (hfresh : proxy.id ∉ registry.proxies)
    (hcapacity : slab.capacity = registry.slab.capacity)
    (hfree : registry.slab.free = proxy.component.slots ++ slab.free)
    (hcount : proxy.component.slots.length = proxy.items.length)
    (hadmission : admission.active = registry.admission.active + 1) :
    registry.Accounted ({ registry with
        slab
        admission
        retainedItemCount := registry.retainedItemCount + proxy.items.length
        created }.setProxy proxy) := by
  refine ⟨keyed_setProxy hkeyed proxy, hcapacity, ?_⟩
  have hstep : registry.ledger.Step _ := .created proxy.component.slots slab.free
    ((congrArg _ hfree).trans (Multiset.coe_add _ _).symm)
  have hentries : (registry.proxies.insert proxy.id proxy).entries =
      ⟨proxy.id, proxy⟩ :: registry.proxies.entries := AList.entries_insert_of_notMem hfresh
  unfold ledger setProxy
  rw [hentries, hadmission, List.map_cons, ← Multiset.cons_coe]
  unfold held
  rw [← hcount]
  exact hstep

theorem accounted_create (hbounded : ∀ slot ∈ registry.slab.free, slot < registry.slab.capacity)
    (hfresh : inputs.proxyId ∉ registry.proxies) (stream : σ) (create : HalComponentCreate F) :
    registry.Accounted (registry.create config inputs stream create).1 := by
  unfold Registry.create
  dsimp only
  generalize (if create.namePrefix = [] then create.name else create.namePrefix) = namePrefix
  split_ifs
  · exact .refl hkeyed
  · exact .refl hkeyed
  · split
    next => exact .refl hkeyed
    next definitions hdefinitions =>
      split
      next admission hbudget hadmission =>
        have hactive := acquire_active hadmission
        split
        next failure slab hbuild =>
          obtain ⟨hcapacity, hfree⟩ := buildComponent_restores hbounded hbuild
          refine ⟨hkeyed, hcapacity, ?_⟩
          unfold ledger AdmissionCounter.release
          rw [hfree, hactive, Nat.add_sub_cancel]
          exact .kept
        next component slab hbuild =>
          obtain ⟨hcapacity, hfree, hlength⟩ := buildComponent_slots hbuild
          have hitems : (registry.newProxy config inputs create component namePrefix definitions
              stream).items.length = definitions.length + 1 := by
            unfold newProxy
            rw [List.length_append, List.length_map, List.length_singleton]
          have hkeeps := Proxy.keeps_encodeSnapshot
            (registry.newProxy config inputs create component namePrefix definitions stream) config
            inputs.calls true
          have hcount := hkeeps.count.trans hitems
          rw [← hcount]
          exact accounted_created hkeyed hfresh hcapacity hfree (hlength.trans hcount.symm) hactive
      next => exact .refl hkeyed

theorem accounted_attach (inputs : RegistryInputs F) (stream : σ) (attach : HalComponentAttach) :
    registry.Accounted (registry.attach config inputs stream attach).1 := by
  unfold Registry.attach
  split
  next => exact .refl hkeyed
  next proxy hlookup =>
    split_ifs
    · exact .refl hkeyed
    · exact .refl hkeyed
    · exact .refl hkeyed
    · exact accounted_setProxy hkeyed hlookup
        ((Proxy.keeps_takeOver proxy inputs.now stream).trans (Proxy.keeps_encodeSnapshot _ config _ _))

theorem accounted_dispatched {dispatched : Registry F σ × RemoteComponentResult F}
    (hbounded : ∀ slot ∈ registry.liveSlots, slot < registry.slab.capacity)
    (hlookup : registry.proxies.lookup id = some proxy) (h : registry.Dispatched proxy dispatched) :
    registry.Accounted dispatched.1 := by
  have hkeeps := proxy.edited_detached.keeps
  cases h with
  | answered hanswers => exact accounted_setProxy hkeyed hlookup hanswers.edited.keeps
  | refused _ _ => exact .refl hkeyed
  | detached _ => exact accounted_setProxy hkeyed hlookup hkeeps
  | destroyed _ =>
    have hid : proxy.detached.id = id := hkeeps.id.trans (hkeyed id proxy hlookup)
    have hslots : ∀ slot ∈ proxy.detached.component.slots, slot < registry.slab.capacity := by
      intro slot hslot
      rw [hkeeps.slots] at hslot
      exact hbounded slot (List.mem_flatMap.mpr ⟨⟨id, proxy⟩, AList.mem_lookup_iff.mp hlookup, hslot⟩)
    obtain ⟨hcapacity, hfree⟩ := proxy.detached.component.close_free registry.slab hslots
    refine ⟨?_, hcapacity, ?_⟩
    · intro other found hfound
      rw [lookup_erase] at hfound
      split_ifs at hfound
      exact hkeyed other found hfound
    · have hstep : registry.ledger.Step _ := .destroyed _ _ _ (holdings_lookup hlookup)
      unfold ledger AdmissionCounter.release
      rw [hfree, hid, hkeeps.count, hkeeps.slots]
      exact hstep

theorem accounted_consume
    (hbounded : ∀ slot ∈ registry.liveSlots ++ registry.slab.free, slot < registry.slab.capacity)
    (hfresh : inputs.proxyId ∉ registry.proxies) (attachedId : HalName) (attachedGeneration : ℕ) (stream : σ)
    (request : HalComponentClientMessage F) :
    registry.Accounted (registry.consume config inputs attachedId attachedGeneration stream request).1 := by
  obtain ⟨hlive, hfree⟩ := List.forall_mem_append.mp hbounded
  unfold Registry.consume
  split
  next create _ => exact accounted_create hkeyed hfree hfresh stream create
  next attach _ => exact accounted_attach hkeyed inputs stream attach
  next => exact .refl hkeyed
  next => exact .refl hkeyed
  next => exact .refl hkeyed
  next =>
    split
    next => exact .refl hkeyed
    next proxy hlookup =>
      split_ifs
      · exact .refl hkeyed
      · exact accounted_dispatched hkeyed hlive hlookup (dispatched_dispatch _ _ _ _)

end

theorem foldl_release {α : Type} (ids : List α) (admission : AdmissionCounter) :
    (ids.foldl (fun admission _ => admission.release) admission).active =
      admission.active - ids.length := by
  induction ids generalizing admission with
  | nil => rfl
  | cons id ids ih =>
    rw [List.foldl_cons, ih, List.length_cons, Nat.add_comm, ← Nat.sub_sub]
    rfl

theorem foldl_close (entries : List (Sigma fun _ : HalName => Proxy F σ)) (slab : HalAllocationSlab)
    (hbounded : ∀ slot ∈ entries.flatMap fun entry => entry.2.component.slots, slot < slab.capacity) :
    (entries.foldl (fun slab entry => entry.2.component.close slab) slab).capacity = slab.capacity ∧
      ((entries.foldl (fun slab entry => entry.2.component.close slab) slab).free : Multiset ℕ) =
        (entries.flatMap fun entry => entry.2.component.slots) + slab.free := by
  induction entries generalizing slab with
  | nil => exact ⟨rfl, rfl⟩
  | cons entry entries ih =>
    rw [List.flatMap_cons] at hbounded
    obtain ⟨hfirst, hrest⟩ := List.forall_mem_append.mp hbounded
    obtain ⟨hcapacity, hfree⟩ := entry.2.component.close_free slab hfirst
    rw [← hcapacity] at hrest
    obtain ⟨hcapacity', hfree'⟩ := ih (entry.2.component.close slab) hrest
    rw [List.foldl_cons]
    refine ⟨hcapacity'.trans hcapacity, hfree'.trans ?_⟩
    rw [hfree, List.flatMap_cons, ← Multiset.coe_add, add_assoc, add_left_comm]

theorem accounted_shutdown (hbounded : ∀ slot ∈ registry.liveSlots, slot < registry.slab.capacity) :
    registry.Accounted registry.shutdown := by
  obtain ⟨hcapacity, hfree⟩ := foldl_close registry.proxies.entries registry.slab hbounded
  refine ⟨?_, hcapacity, ?_⟩
  · intro id proxy hlookup
    cases hlookup
  · have hstep : registry.ledger.Step _ := .cleared
    have hcard : registry.ledger.holdings.card = registry.proxies.keys.length := by
      unfold ledger AList.keys List.keys
      rw [Multiset.coe_card, List.length_map, List.length_map]
    rw [ledger_used, hcard] at hstep
    unfold ledger shutdown
    rw [hfree, foldl_release]
    exact hstep

theorem accounted_step [BEq F] (hkeyed : registry.Keyed)
    (hbounded : ∀ slot ∈ registry.liveSlots ++ registry.slab.free, slot < registry.slab.capacity)
    (hstep : registry.step config action = some registry') :
    registry.Accounted registry' := by
  cases action with
  | consume inputs attachedId attachedGeneration stream request =>
    unfold Registry.step at hstep
    dsimp only at hstep
    split_ifs at hstep with hid
    cases hstep
    exact accounted_consume hkeyed hbounded (not_or.mp hid).2 attachedId attachedGeneration stream request
  | detach id generation =>
    cases hstep
    exact accounted_detach hkeyed id generation
  | sample calls now =>
    cases hstep
    obtain ⟨hkeyed', hslab, hledger⟩ := ledger_sampleIds calls now registry.proxies.keys hkeyed
    exact ⟨hkeyed', congrArg _ hslab, hledger ▸ .kept⟩
  | shutdown =>
    cases hstep
    exact accounted_shutdown (List.forall_mem_append.mp hbounded).1

/-- The registry's ledger is conserved, over the slab that the budget sizes. -/
structure Budgeted (config : RegistryConfig) (registry : Registry F σ) : Prop where
  keyed : registry.Keyed
  capacity : registry.slab.capacity = config.maxItems
  conserved : registry.ledger.Conserved config.maxItems

theorem Budgeted.slots (h : registry.Budgeted config) :
    ((registry.liveSlots ++ registry.slab.free : List ℕ) : Multiset ℕ) =
      Multiset.range config.maxItems := by
  rw [← h.conserved.partition, ledger_used]
  rfl

theorem Budgeted.bounded (h : registry.Budgeted config) :
    ∀ slot ∈ registry.liveSlots ++ registry.slab.free, slot < registry.slab.capacity := by
  intro slot hslot
  rw [h.capacity, ← Multiset.mem_range, ← h.slots]
  exact hslot

theorem Budgeted.step [BEq F] (h : registry.Budgeted config)
    (hstep : registry.step config action = some registry') : registry'.Budgeted config := by
  have haccounted := accounted_step h.keyed h.bounded hstep
  exact ⟨haccounted.keyed, haccounted.capacity.trans h.capacity, h.conserved.step haccounted.step⟩

theorem budgeted_initial (config : RegistryConfig) (capacity : ℕ) (accepting : Bool) :
    Budgeted config ({ admission := { capacity, accepting }, slab := .create config.maxItems } :
      Registry F σ) := by
  refine ⟨?_, rfl, ?_, rfl, rfl, rfl⟩
  · intro id proxy hlookup
    cases hlookup
  · intro held hheld
    exact absurd hheld (Multiset.notMem_zero held)

/-- While a creation within the budget is under way, the slab has a slot for the next item. -/
theorem Budgeted.acquire (h : registry.Budgeted config) {calls : HalCalls F}
    {component component' : HalComponent F} {definitions : List (ItemDefinition F)} {k : ℕ}
    (hfits : definitions.length + 1 ≤ config.maxItems)
    (hbudget : registry.retainedItemCount ≤ config.maxItems - (definitions.length + 1))
    (hk : k ≤ definitions.length)
    (hadd : addDefinitions config.halNameLen calls registry.slab component (definitions.take k) =
      (slab, component', none)) : slab.acquire ≠ none := by
  obtain ⟨-, taken, hfree, -, hlength⟩ := HalComponent.addDefinitions_slots hadd
  have hcard : registry.retainedItemCount + registry.slab.free.length = config.maxItems :=
    h.conserved.card_free
  have htaken := hlength rfl
  rw [List.length_take] at htaken
  rw [hfree, List.length_append] at hcard
  have hpositive : slab.free ≠ [] := by
    rintro hnil
    rw [hnil, List.length_nil] at hcard
    omega
  unfold HalAllocationSlab.acquire
  split
  next hnil => exact absurd hnil hpositive
  next => simp

/-- In every state that operations on the HAL worker can reach, whatever HAL calls fail: the retained item
count is the number of the items of the retained proxies, and of the slots in use, within the budget; the
admission count is the number of retained proxies; every slot is in use once or free once and not both; and a
creation that passed the budget check finds a free slot for each of its items and for the managed pin. -/
theorem remoteComponent_budget [BEq F] {config : RegistryConfig} {capacity : ℕ} {accepting : Bool}
    {actions : List (RegistryAction F σ)} {registry : Registry F σ}
    (hrun : Run (Registry.step config)
      { admission := { capacity, accepting }, slab := .create config.maxItems } actions registry) :
    (registry.retainedItemCount = (registry.proxies.entries.map fun entry => entry.2.items.length).sum ∧
      registry.retainedItemCount = registry.liveSlots.length ∧
      registry.retainedItemCount + registry.slab.free.length = config.maxItems ∧
      registry.retainedItemCount ≤ config.maxItems) ∧
    registry.admission.active = registry.proxies.entries.length ∧
    (registry.liveSlots ++ registry.slab.free).Nodup ∧
    (∀ slot, slot ∈ registry.liveSlots ++ registry.slab.free ↔ slot < config.maxItems) ∧
    ∀ (calls : HalCalls F) (component component' : HalComponent F) (definitions : List (ItemDefinition F))
      (k : ℕ) (slab : HalAllocationSlab), definitions.length + 1 ≤ config.maxItems →
      registry.retainedItemCount ≤ config.maxItems - (definitions.length + 1) → k ≤ definitions.length →
      addDefinitions config.halNameLen calls registry.slab component (definitions.take k) =
        (slab, component', none) → slab.acquire ≠ none := by
  have hbudgeted : registry.Budgeted config := by
    apply hrun.invariant
    · exact budgeted_initial config capacity accepting
    · intro registry action registry' hstep h
      exact h.step hstep
  have hslots := hbudgeted.slots
  have hfree := hbudgeted.conserved.card_free
  refine ⟨⟨?_, ?_, hfree, hfree ▸ Nat.le_add_right _ _⟩, ?_, ?_, ?_, ?_⟩
  · have hretained := hbudgeted.conserved.retained
    unfold ledger at hretained
    rw [Multiset.map_coe, List.map_map, Multiset.sum_coe] at hretained
    exact hretained
  · have hused := hbudgeted.conserved.card_used
    rw [ledger_used] at hused
    exact hused.symm
  · exact hbudgeted.conserved.admitted.trans (List.length_map _)
  · rw [← Multiset.coe_nodup, hslots]
    exact Multiset.nodup_range _
  · intro slot
    rw [← Multiset.mem_coe, hslots, Multiset.mem_range]
  · intro calls component component' definitions k slab hfits hbudget hk hadd
    exact hbudgeted.acquire hfits hbudget hk hadd

/-! Two items of a lamp are taken, a second component fails at its managed pin, and the lamp is destroyed and
created again. -/

def failingInputs : RegistryInputs ℤ :=
  { sampleInputs 0 with
    proxyId := ['q']
    calls :=
      { (sampleInputs 0).calls with
        itemNew := fun name => if name = 'm' :: '.' :: kOnlinePin then -12 else 0 } }

def lampRebuilt : List (RegistryAction ℤ ℕ) :=
  [.consume (sampleInputs 0) [] 0 7 (.create lampCreate),
    .consume failingInputs [] 0 8 (.create { lampCreate with name := ['m'] }),
    .consume failingInputs ['p'] 1 7 (.close 1 (some .destroy)),
    .consume (sampleInputs 0) [] 0 9 (.create lampCreate)]

/-- After the failure six slots are free, as before it; the rebuilt lamp has two of eight. -/
theorem remoteComponent_budget_lamp : (lampAfter (lampRebuilt.take 2)).slab.free.length = 6 ∧
      (lampAfter lampRebuilt).liveSlots.length = 2 ∧ (lampAfter lampRebuilt).admission.active = 1 ∧
      (lampAfter lampRebuilt).retainedItemCount + (lampAfter lampRebuilt).slab.free.length = 8 ∧
      ((lampAfter lampRebuilt).liveSlots ++ (lampAfter lampRebuilt).slab.free).Nodup := by
  have hrun : Run (Registry.step sampleConfig) lampInitial lampRebuilt (lampAfter lampRebuilt) :=
    .getD_exec (by decide +kernel)
  have hbudget := remoteComponent_budget hrun
  exact ⟨by decide +kernel, by decide +kernel, by decide +kernel, hbudget.1.2.2.1, hbudget.2.2.1⟩

end Registry

end LinuxcncCtrl
