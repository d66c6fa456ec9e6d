import LinuxcncCtrl.Sanity.HalTelemetryStore

/-! Slots of a HAL value subscription over its whole life: a new slot is the next number of a counter that
never goes back, so a slot is bound once, and stays with its item and its type. -/

namespace LinuxcncCtrl

open Lib

variable {V : Type}

namespace HalTelemetryState

variable {state updated : HalTelemetryState V} {items : List HalTelemetryResolvedItem} {nextSlot : UInt32}
  {bound : HalTelemetryBinding × Option V} {item : HalTelemetryResolvedItem}

theorem rebind_kept (hitem : item ∈ items) (hprior : state.prior item = some bound) :
    bound ∈ (state.rebind nextSlot items).2 := by
  induction items generalizing nextSlot with
  | nil => cases hitem
  | cons first items ih =>
    unfold rebind
    rcases List.mem_cons.mp hitem with rfl | hitem
    · simp only [hprior]
      exact List.mem_cons_self
    · cases state.prior first with
      | some kept => exact List.mem_cons_of_mem _ (ih hitem)
      | none => exact List.mem_cons_of_mem _ (ih hitem)

theorem update_zip (state : HalTelemetryState V) (items : List HalTelemetryResolvedItem)
    (samplePeriod : ℕ) :
    (state.update items samplePeriod).bindings.zip (state.update items samplePeriod).values =
      (state.rebind state.nextSlot items).2 := by
  unfold HalTelemetryState.update
  rw [List.zip_map']
  exact List.map_id _

/-- Valid, and no item is bound twice. -/
structure Slotted (state : HalTelemetryState V) : Prop where
  valid : state.Valid
  once : (state.bindings.map HalTelemetryBinding.item).Nodup

variable {bound' : HalTelemetryBinding × Option V}

theorem Slotted.bound_eq (h : state.Slotted) (hbound : bound ∈ state.bindings.zip state.values)
    (hbound' : bound' ∈ state.bindings.zip state.values) (hitem : bound.1.item = bound'.1.item) :
    bound = bound' := by
  have honce : ((state.bindings.zip state.values).map fun bound => bound.1.item).Nodup := by
    have hfst := List.map_fst_zip (Nat.le_of_eq h.valid.lengths)
    have honce := h.once
    rw [← hfst, List.map_map] at honce
    exact honce
  exact List.inj_on_of_nodup_map honce hbound hbound' hitem

theorem Slotted.prior (h : state.Slotted) (hbound : bound ∈ state.bindings.zip state.values)
    (hitem : bound.1.item = item.item) (htype : bound.1.type = item.type) :
    state.prior item = some bound := by
  apply Option.filter_eq_some_iff.mpr
  refine ⟨?_, decide_eq_true htype⟩
  cases hfind : (state.bindings.zip state.values).find? fun bound => decide (bound.1.item = item.item) with
  | none => exact absurd (decide_eq_true hitem) (List.find?_eq_none.mp hfind bound hbound)
  | some found =>
    have hfound := List.find?_some hfind
    rw [decide_eq_true_eq] at hfound
    rw [h.bound_eq (List.mem_of_find?_eq_some hfind) hbound (hfound.trans hitem.symm)]

theorem Slotted.update (h : state.Slotted) (hitems : (items.map HalTelemetryResolvedItem.item).Nodup)
    (hroom : state.nextSlot.toNat + state.fresh items < 2 ^ 32) (samplePeriod : ℕ) :
    (state.update items samplePeriod).Slotted := by
  refine ⟨h.valid.update hitems hroom samplePeriod, ?_⟩
  rw [update_items]
  exact hitems

/-- An item bound before and after the update with one type has its binding and its value. -/
theorem Slotted.kept (h : state.Slotted) (samplePeriod : ℕ)
    (hbound : bound ∈ state.bindings.zip state.values)
    (hbound' : bound' ∈ (state.update items samplePeriod).bindings.zip
      (state.update items samplePeriod).values)
    (hitem : bound.1.item = bound'.1.item) (htype : bound.1.type = bound'.1.type) : bound' = bound := by
  rw [update_zip] at hbound'
  obtain ⟨item, -, hitem', htype', hprior⟩ := rebind_bound hbound'
  have hfound := h.prior hbound (hitem.trans hitem') (htype.trans htype')
  rcases hprior with hkept | ⟨hnone, -⟩
  · exact Option.some.inj (hkept.symm.trans hfound)
  · cases hnone.symm.trans hfound

theorem slotted_doCreate {request : HalValueRequest} {created : HalTelemetryState V}
    (h : doCreateValueSubscription request = .ok created) : created.Slotted := by
  refine ⟨valid_doCreate h, ?_⟩
  obtain ⟨items, period, hresolved, rfl⟩ := doCreate_spec h
  rw [(create_spec items period).1]
  exact (resolveSubscriptionItems_spec hresolved).1

section Steps

variable {request : HalValueRequest} {action : SubscriptionAction V}

theorem allocates_update (h : state.doUpdateValueSubscription request = .ok updated)
    (hresolved : resolveSubscriptionItems request.types state.bindings request.items = .ok items) :
    (SubscriptionAction.update request : SubscriptionAction V).allocates state = state.fresh items := by
  unfold SubscriptionAction.allocates
  simp only [h, hresolved]
  rfl

/-- What a step does: nothing, an update to resolved items, or new values for the same bindings. -/
inductive Turn (state : HalTelemetryState V) (action : SubscriptionAction V) : HalTelemetryState V → Prop
  | ignored : Turn state action state
  | updated (items : List HalTelemetryResolvedItem) (samplePeriod : ℕ) :
      (items.map HalTelemetryResolvedItem.item).Nodup → action.allocates state = state.fresh items →
      Turn state action (state.update items samplePeriod)
  | published (values : List (Option V)) : values.length = state.values.length →
      Turn state action { state with values, sampled := true, sequence := state.sequence + 1 }

/-- An item that HAL no longer has stays bound as it was. -/
theorem Slotted.unavailable (h : state.Slotted)
    (hupdated : state.doUpdateValueSubscription request = .ok updated) {binding : HalTelemetryBinding}
    (hbinding : binding ∈ state.bindings) (hrequested : some binding.item ∈ request.items)
    (hgone : request.types binding.item = none) : binding ∈ updated.bindings := by
  obtain ⟨items, period, hresolved, rfl⟩ := doUpdate_spec hupdated
  obtain ⟨item, hitem, hresolve⟩ := (resolveSubscriptionItems_spec hresolved).2.2.2 _ hrequested
  have hname := resolveReference_item hresolve
  have htype : item.type = binding.type := by
    have hfound : state.bindings.find? (fun other => decide (other.item = binding.item)) = some binding := by
      cases hfind : state.bindings.find? fun other => decide (other.item = binding.item) with
      | none => exact absurd (decide_eq_true rfl) (List.find?_eq_none.mp hfind binding hbinding)
      | some found =>
        have hsame := List.find?_some hfind
        rw [decide_eq_true_eq] at hsame
        rw [List.inj_on_of_nodup_map h.once (List.mem_of_find?_eq_some hfind) hbinding hsame]
    unfold resolveReference at hresolve
    simp only [hgone, hfound] at hresolve
    cases hresolve
    rfl
  obtain ⟨index, hindex⟩ := List.mem_iff_getElem?.mp hbinding
  obtain ⟨value, hvalue⟩ : ∃ value, state.values[index]? = some value := by
    refine ⟨state.values.get ⟨index, ?_⟩, List.getElem?_eq_getElem _⟩
    rw [← h.valid.lengths]
    exact (List.getElem?_eq_some_iff.mp hindex).1
  have hbound : (binding, value) ∈ state.bindings.zip state.values :=
    List.mem_of_getElem? (List.getElem?_zip_eq_some.mpr ⟨hindex, hvalue⟩)
  have hprior := h.prior hbound hname.symm htype.symm
  exact List.mem_map_of_mem (rebind_kept hitem hprior)

variable [DecidableEq V] {state' : HalTelemetryState V}

theorem step_turn (h : state.step action = some state') : state.Turn action state' := by
  cases action with
  | update request =>
    unfold HalTelemetryState.step at h
    dsimp only at h
    split at h
    next =>
      cases h
      exact .ignored
    next updated hupdated =>
      cases h
      obtain ⟨items, period, hresolved, rfl⟩ := doUpdate_spec hupdated
      exact .updated items period (resolveSubscriptionItems_spec hresolved).1
        (allocates_update hupdated hresolved)
  | publish revision values =>
    cases h
    cases hpublish : state.publish revision values with
    | none => exact .ignored
    | some published =>
      obtain ⟨-, hlength, rfl⟩ := publish_spec hpublish
      exact .published values hlength

theorem Slotted.step (h : state.Slotted) (hremain : state.SlotsRemain action)
    (hstep : state.step action = some state') : state'.Slotted := by
  unfold SlotsRemain at hremain
  cases step_turn hstep with
  | ignored => exact h
  | updated items samplePeriod hitems hallocates =>
    rw [hallocates] at hremain
    exact h.update hitems hremain samplePeriod
  | published values hlength =>
    exact ⟨{ h.valid with lengths := h.valid.lengths.trans hlength.symm }, h.once⟩

/-- The counter has passed the slots of `first`, and a binding with one of them is one of `first`. -/
structure Descends (first state : HalTelemetryState V) : Prop where
  counter : first.nextSlot.toNat ≤ state.nextSlot.toNat
  bound : ∀ binding ∈ state.bindings,
    binding ∈ first.bindings ∨ ∀ other ∈ first.bindings, other.slot ≠ binding.slot

theorem Descends.step {first : HalTelemetryState V} (hfirst : first.Slotted) (h : first.Descends state)
    (hremain : state.SlotsRemain action)
    (hstep : state.step action = some state') : first.Descends state' := by
  unfold SlotsRemain at hremain
  cases step_turn hstep with
  | ignored => exact h
  | updated items samplePeriod hitems hallocates =>
    rw [hallocates] at hremain
    refine ⟨?_, ?_⟩
    · show first.nextSlot.toNat ≤ (state.rebind state.nextSlot items).1.toNat
      rw [rebind_nextSlot hremain]
      exact Nat.le_add_right_of_le h.counter
    · intro binding hbinding
      obtain ⟨bound, hbound, rfl⟩ := List.mem_map.mp hbinding
      rcases (rebind_mem hremain hbound).2 with hkept | ⟨hnew, -⟩
      · exact h.bound bound.1 (mem_bindings hkept)
      · -- a new slot is beyond every slot that `first` had given
        right
        intro other hother heq
        have hlt := hfirst.valid.taken other hother
        have hle := h.counter
        rw [heq] at hlt
        omega
  | published values hlength => exact ⟨h.counter, h.bound⟩

end Steps

/-- Whatever updates and samples follow each other, while fewer than 2^32 slots have been allocated: the
slots of a revision are distinct and its items occur once; a slot that is bound again in any later state has
the same item and type; a refused update changes nothing; and an accepted one makes exactly the next revision,
of the items requested, in which an item with the type it had keeps its slot and its value, and an item that
HAL no longer has keeps its type. -/
theorem slots_stable [DecidableEq V] {create : HalValueRequest} {created state : HalTelemetryState V}
    {actions : List (SubscriptionAction V)} (hcreate : doCreateValueSubscription create = .ok created)
    (hrun : RunWhere step SlotsRemain created actions state) :
    ((state.bindings.map HalTelemetryBinding.slot).Nodup ∧
      (state.bindings.map HalTelemetryBinding.item).Nodup ∧
      ∀ item, state.priorByKey item = state.prior item) ∧
    (∀ later actions', RunWhere step SlotsRemain state actions' later →
      ∀ binding ∈ state.bindings, ∀ binding' ∈ later.bindings, binding.slot = binding'.slot →
        binding.item = binding'.item ∧ binding.type = binding'.type) ∧
    (∀ request status, state.doUpdateValueSubscription request = .error status →
      state.step (.update request) = some state) ∧
    (∀ request updated, state.doUpdateValueSubscription request = .ok updated →
      state.step (.update request) = some updated ∧ updated.revision = state.revision + 1 ∧
      updated.bindings.map (fun binding => some binding.item) = request.items ∧
      (∀ bound ∈ state.bindings.zip state.values, ∀ bound' ∈ updated.bindings.zip updated.values,
        bound.1.item = bound'.1.item → bound.1.type = bound'.1.type → bound' = bound) ∧
      ∀ binding ∈ state.bindings, some binding.item ∈ request.items →
        request.types binding.item = none → binding ∈ updated.bindings) ∧
    ∀ revision values published, state.publish revision values = some published →
      published.revision = state.revision ∧ published.bindings = state.bindings := by
  have hslotted : state.Slotted := by
    apply hrun.invariant
    · exact slotted_doCreate hcreate
    · intro state action state' hremain hstep h
      exact h.step hremain hstep
  refine ⟨⟨hslotted.valid.distinct, hslotted.once, priorByKey_eq state⟩, ?_, ?_, ?_, ?_⟩
  · intro later actions' hlater binding hbinding binding' hbinding' hslot
    have hdescends : state.Descends later := by
      apply hlater.invariant
      · exact ⟨le_rfl, fun binding hbinding => .inl hbinding⟩
      · intro state' action state'' hremain hstep h
        exact h.step hslotted hremain hstep
    rcases hdescends.bound binding' hbinding' with hmem | hother
    · rw [List.inj_on_of_nodup_map hslotted.valid.distinct hbinding hmem hslot]
      exact ⟨rfl, rfl⟩
    · exact absurd hslot (hother binding hbinding)
  · intro request status herror
    unfold HalTelemetryState.step
    simp only [herror]
  · intro request updated hupdated
    obtain ⟨items, period, hresolved, rfl⟩ := doUpdate_spec hupdated
    refine ⟨?_, rfl, ?_, ?_, ?_⟩
    · unfold HalTelemetryState.step
      simp only [hupdated]
    · have hitems := congrArg (List.map some) (update_items state items period)
      rw [List.map_map, List.map_map] at hitems
      rw [(resolveSubscriptionItems_spec hresolved).2.2.1]
      exact hitems
    · intro bound hbound bound' hbound' hitem htype
      exact hslotted.kept period hbound hbound' hitem htype
    · intro binding hbinding hrequested hgone
      exact hslotted.unavailable hupdated hbinding hrequested hgone
  · intro revision values published hpublished
    obtain ⟨-, -, rfl⟩ := publish_spec hpublished
    exact ⟨rfl, rfl⟩

/-! Two pins are bound and sampled; the first is dropped, and the second, of which HAL has lost sight, stays;
then the first comes back. -/

def pinRequest (expectedRevision : ℕ) (names : List HalName) (known : Bool) : HalValueRequest :=
  { expectedRevision
    items := names.map fun name => some ⟨.pin, name⟩
    samplePeriodMs := 50
    types := fun _ => if known then some .float else none
    budget := true }

def pinsBound : HalTelemetryState ℕ := create [⟨⟨.pin, ['a']⟩, .float⟩, ⟨⟨.pin, ['b']⟩, .float⟩] 50

def pinsChanged : List (SubscriptionAction ℕ) :=
  [.publish 1 [some 7, some 8], .update (pinRequest 1 [['b']] false),
    .update (pinRequest 2 [['a'], ['b']] true)]

/-- The second pin has slot 1 and its value throughout; the first comes back with slot 2. -/
theorem slots_stable_pins : ((execWhere step SlotsRemain pinsBound pinsChanged).map fun state =>
        state.bindings.zip state.values |>.map fun bound => (bound.1.item.name, bound.1.slot, bound.2)) =
      some [(['a'], 2, none), (['b'], 1, some 8)] ∧
    ∀ binding ∈ pinsBound.bindings,
      ∀ binding' ∈ ((execWhere step SlotsRemain pinsBound pinsChanged).getD pinsBound).bindings,
        binding.slot = binding'.slot → binding.item = binding'.item ∧ binding.type = binding'.type := by
  have hcreate : doCreateValueSubscription (pinRequest 0 [['a'], ['b']] true) = .ok pinsBound := rfl
  have hrun : RunWhere step SlotsRemain pinsBound pinsChanged
      ((execWhere step SlotsRemain pinsBound pinsChanged).getD pinsBound) := .getD_exec (by decide +kernel)
  exact ⟨by decide +kernel, (slots_stable hcreate .nil).2.1 _ _ hrun⟩

end HalTelemetryState

end LinuxcncCtrl
