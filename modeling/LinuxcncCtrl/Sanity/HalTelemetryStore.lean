import LinuxcncCtrl.Sanity.HalValueTelemetry
import LinuxcncCtrl.Spec.HalTelemetryStore

/-! Keys, the items of a subscription, and what each operation on the tables leaves in them. -/

namespace LinuxcncCtrl

open Lib

variable {V : Type}

/-- The kind is one digit, so the key determines the reference. -/
theorem key_injective {item item' : HalTelemetryReference} (h : item.key = item'.key) : item = item' := by
  obtain ⟨kind, name⟩ := item
  obtain ⟨kind', name'⟩ := item'
  unfold HalTelemetryReference.key at h
  simp only [List.cons.injEq, true_and] at h
  obtain ⟨hdigit, rfl⟩ := h
  have hkind : kind = kind' := by
    cases kind <;> cases kind' <;> first | rfl | exact absurd hdigit (by decide)
  rw [hkind]

namespace HalTelemetryState

theorem priorByKey_eq (state : HalTelemetryState V) (item : HalTelemetryResolvedItem) :
    state.priorByKey item = state.prior item := by
  have hkey : ∀ bound : HalTelemetryBinding × Option V,
      decide (bound.1.item.key = item.item.key) = decide (bound.1.item = item.item) := fun bound =>
    decide_eq_decide.mpr ⟨key_injective, congrArg HalTelemetryReference.key⟩
  unfold priorByKey prior
  simp only [hkey]

theorem rebind_items (state : HalTelemetryState V) (nextSlot : UInt32)
    (items : List HalTelemetryResolvedItem) :
    (state.rebind nextSlot items).2.map (fun bound => bound.1.item) =
      items.map HalTelemetryResolvedItem.item := by
  induction items generalizing nextSlot with
  | nil => rfl
  | cons item items ih =>
    unfold rebind
    cases hprior : state.prior item with
    | some bound => simp only [List.map_cons, ih, (prior_spec hprior).2]
    | none => simp only [List.map_cons, ih]

theorem update_items (state : HalTelemetryState V) (items : List HalTelemetryResolvedItem)
    (samplePeriod : ℕ) :
    (state.update items samplePeriod).bindings.map HalTelemetryBinding.item =
      items.map HalTelemetryResolvedItem.item := by
  unfold HalTelemetryState.update
  rw [List.map_map]
  exact state.rebind_items state.nextSlot items

theorem create_spec (items : List HalTelemetryResolvedItem) (samplePeriod : ℕ) :
    (create items samplePeriod : HalTelemetryState V).bindings.map HalTelemetryBinding.item =
        items.map HalTelemetryResolvedItem.item ∧
      (create items samplePeriod : HalTelemetryState V).samplePeriod = samplePeriod := by
  have hfold : ∀ state : HalTelemetryState V,
      let created := items.foldl (fun state item =>
        { state with
          nextSlot := state.nextSlot + 1
          bindings := state.bindings ++ [⟨state.nextSlot, item.item, item.type⟩]
          values := state.values ++ [none] }) state
      created.bindings.map HalTelemetryBinding.item =
          state.bindings.map HalTelemetryBinding.item ++ items.map HalTelemetryResolvedItem.item ∧
        created.samplePeriod = state.samplePeriod := by
    induction items with
    | nil => exact fun state => ⟨(List.append_nil _).symm, rfl⟩
    | cons item items ih =>
      intro state
      refine ⟨(ih _).1.trans ?_, (ih _).2⟩
      rw [List.map_append, List.map_cons, List.append_assoc]
      rfl
  exact hfold { samplePeriod }

end HalTelemetryState

namespace HalValueTelemetry

variable {store : HalValueTelemetry V} {id : HalName} {entry other : HalTelemetryEntry V}

theorem find_mem (h : store.find id = some entry) : entry ∈ store.states ∧ entry.id = id := by
  have hid := List.find?_some h
  rw [decide_eq_true_eq] at hid
  exact ⟨List.mem_of_find?_eq_some h, hid⟩

theorem mem_set (h : other ∈ (store.set entry).states) :
    other = entry ∨ other ∈ store.states ∧ other.id ≠ entry.id := by
  obtain ⟨old, hold, heq⟩ := List.mem_map.mp h
  split_ifs at heq with hid
  · exact .inl heq.symm
  · rw [← heq]
    exact .inr ⟨hold, hid⟩

theorem mem_expire {now : ℤ} (h : other ∈ (store.expireLocked now).states) :
    other ∈ store.states ∧ other.expired now = false := by
  obtain ⟨hmem, hlive⟩ := List.mem_filter.mp h
  exact ⟨hmem, Bool.not_eq_true' _ ▸ hlive⟩

end HalValueTelemetry

end LinuxcncCtrl
