import LinuxcncCtrl.Spec.HalValueStream

/-! The slots of a subscription: they stay distinct as long as the slot counter does not wrap. Over distinct
slots a replacement frame, or a delta over the same bindings, gives the client the snapshot. -/

namespace LinuxcncCtrl

open Lib

variable {V : Type} {references : List HalTelemetryReference}
  {types : HalTelemetryReference → Option HalTelemetryType} {bindings : List HalTelemetryBinding}
  {seen : List HalTelemetryReference} {items : List (Option HalTelemetryReference)}

theorem decodeReferences_spec (h : decodeReferences seen items = .ok references) :
    items = references.map some ∧ references.Nodup ∧ ∀ reference ∈ references, reference ∉ seen := by
  induction items generalizing seen references with
  | nil =>
    cases h
    exact ⟨rfl, List.nodup_nil, nofun⟩
  | cons item items ih =>
    cases item with
    | none => cases h
    | some item =>
      rw [decodeReferences] at h
      split_ifs at h with hseen
      cases hrest : decodeReferences (item :: seen) items with
      | error status => simp only [hrest, reduceCtorEq] at h
      | ok rest =>
        simp only [hrest, Except.ok.injEq] at h
        obtain ⟨hitems, hnodup, hnew⟩ := ih hrest
        subst h
        refine ⟨by rw [hitems, List.map_cons],
          List.nodup_cons.mpr ⟨fun hmem => hnew _ hmem List.mem_cons_self, hnodup⟩, ?_⟩
        intro reference hmem
        rcases List.mem_cons.mp hmem with rfl | hmem
        · exact hseen
        · exact fun hin => hnew _ hmem (List.mem_cons_of_mem _ hin)

theorem resolveReference_item {item : HalTelemetryReference}
    {resolved : HalTelemetryResolvedItem} (h : resolveReference types bindings item = .ok resolved) :
    resolved.item = item := by
  unfold resolveReference at h
  split at h
  · cases h
    rfl
  · split at h
    · cases h
      rfl
    · cases h

theorem mapM_resolveReference {items : List HalTelemetryResolvedItem}
    (h : references.mapM (resolveReference types bindings) = .ok items) :
    items.map HalTelemetryResolvedItem.item = references ∧
      ∀ reference ∈ references, ∃ item ∈ items, resolveReference types bindings reference = .ok item := by
  induction references generalizing items with
  | nil =>
    cases h
    exact ⟨rfl, nofun⟩
  | cons reference references ih =>
    rw [List.mapM_cons] at h
    cases hfirst : resolveReference types bindings reference with
    | error status => simp only [hfirst, bind, Except.bind, reduceCtorEq] at h
    | ok first =>
      cases hrest : references.mapM (resolveReference types bindings) with
      | error status => simp only [hfirst, hrest, bind, Except.bind, reduceCtorEq] at h
      | ok rest =>
        simp only [hfirst, hrest, bind, Except.bind, pure, Except.pure, Except.ok.injEq] at h
        subst h
        obtain ⟨hitems, hfound⟩ := ih hrest
        refine ⟨by rw [List.map_cons, hitems, resolveReference_item hfirst], ?_⟩
        intro reference hmem
        rcases List.mem_cons.mp hmem with rfl | hmem
        · exact ⟨first, List.mem_cons_self, hfirst⟩
        · obtain ⟨item, hitem, heq⟩ := hfound reference hmem
          exact ⟨item, List.mem_cons_of_mem _ hitem, heq⟩

/-- The items resolved are those requested, in their order: at most 1024, none of them twice. -/
theorem resolveSubscriptionItems_spec {requested : List (Option HalTelemetryReference)}
    {items : List HalTelemetryResolvedItem}
    (h : resolveSubscriptionItems types bindings requested = .ok items) :
    (items.map HalTelemetryResolvedItem.item).Nodup ∧ items.length ≤ 1024 ∧
      requested = items.map (fun item => some item.item) ∧
      ∀ reference, some reference ∈ requested →
        ∃ item ∈ items, resolveReference types bindings reference = .ok item := by
  unfold resolveSubscriptionItems at h
  split_ifs at h with hlength
  cases hdecoded : decodeReferences [] requested with
  | error status => simp only [hdecoded, reduceCtorEq] at h
  | ok references =>
    simp only [hdecoded] at h
    obtain ⟨rfl, hfound⟩ := mapM_resolveReference h
    obtain ⟨rfl, hnodup, -⟩ := decodeReferences_spec hdecoded
    rw [List.length_map, List.length_map] at hlength
    refine ⟨hnodup, by omega, List.map_map, ?_⟩
    intro reference hmem
    obtain ⟨_, hmem, ⟨⟩⟩ := List.mem_map.mp hmem
    exact hfound _ hmem

theorem toNat_succ {slot : UInt32} (h : slot.toNat + 1 < 2 ^ 32) : (slot + 1).toNat = slot.toNat + 1 := by
  rw [UInt32.toNat_add, UInt32.toNat_one, Nat.mod_eq_of_lt h]

namespace HalTelemetryState

variable {state : HalTelemetryState V}

structure Valid (state : HalTelemetryState V) : Prop where
  lengths : state.bindings.length = state.values.length
  distinct : (state.bindings.map HalTelemetryBinding.slot).Nodup
  taken : ∀ binding ∈ state.bindings, binding.slot.toNat < state.nextSlot.toNat
  revision : 0 < state.revision

theorem Valid.push (h : state.Valid) (hroom : state.nextSlot.toNat + 1 < 2 ^ 32)
    (item : HalTelemetryReference) (type : HalTelemetryType) :
    ({ state with
      nextSlot := state.nextSlot + 1
      bindings := state.bindings ++ [⟨state.nextSlot, item, type⟩]
      values := state.values ++ [none] } : HalTelemetryState V).Valid := by
  refine ⟨?_, ?_, ?_, h.revision⟩
  · simp only [List.length_append, List.length_singleton, h.lengths]
  · rw [List.map_append, List.map_singleton, ← List.concat_eq_append]
    refine List.Nodup.concat (fun hmem => ?_) h.distinct
    obtain ⟨binding, hbinding, heq⟩ := List.mem_map.mp hmem
    exact Nat.ne_of_lt (h.taken binding hbinding) (congrArg UInt32.toNat heq)
  · intro binding hbinding
    rw [toNat_succ hroom]
    rcases List.mem_append.mp hbinding with hold | hnew
    · exact Nat.lt_succ_of_lt (h.taken binding hold)
    · rw [List.mem_singleton.mp hnew]
      exact Nat.lt_succ_self _

theorem valid_create {items : List HalTelemetryResolvedItem} (h : items.length ≤ 1024)
    (samplePeriod : ℕ) : (create items samplePeriod : HalTelemetryState V).Valid := by
  have hfold : ∀ state : HalTelemetryState V, state.Valid → state.nextSlot.toNat + items.length < 2 ^ 32 →
      (items.foldl (fun state item =>
        { state with
          nextSlot := state.nextSlot + 1
          bindings := state.bindings ++ [⟨state.nextSlot, item.item, item.type⟩]
          values := state.values ++ [none] }) state).Valid := by
    clear h
    induction items with
    | nil => exact fun _ hvalid _ => hvalid
    | cons item items ih =>
      intro state hvalid hroom
      rw [List.length_cons] at hroom
      have hone : state.nextSlot.toNat + 1 < 2 ^ 32 := by omega
      apply ih _ (hvalid.push hone item.item item.type)
      rw [toNat_succ hone]
      omega
  apply hfold
  · exact ⟨rfl, List.nodup_nil, nofun, Nat.one_pos⟩
  · show 0 + items.length < 2 ^ 32
    omega

variable {bound : HalTelemetryBinding × Option V}

theorem prior_spec {item : HalTelemetryResolvedItem} (h : state.prior item = some bound) :
    bound ∈ state.bindings.zip state.values ∧ bound.1.item = item.item := by
  obtain ⟨hfind, -⟩ := Option.filter_eq_some_iff.mp h
  have hitem := List.find?_some hfind
  exact ⟨List.mem_of_find?_eq_some hfind, of_decide_eq_true hitem⟩

variable {nextSlot : UInt32} {items : List HalTelemetryResolvedItem} {request : HalValueRequest}
  {updated : HalTelemetryState V}

theorem rebind_nextSlot (h : nextSlot.toNat + state.fresh items < 2 ^ 32) :
    (state.rebind nextSlot items).1.toNat = nextSlot.toNat + state.fresh items := by
  induction items generalizing nextSlot with
  | nil => rfl
  | cons item items ih =>
    unfold fresh at h
    rw [List.countP_cons] at h
    unfold rebind fresh
    rw [List.countP_cons]
    cases hprior : state.prior item with
    | some bound =>
      simp only [hprior, Option.isNone_some, Bool.false_eq_true, if_false, Nat.add_zero] at h ⊢
      exact ih h
    | none =>
      simp only [hprior, Option.isNone_none, if_true] at h ⊢
      have hone : nextSlot.toNat + 1 < 2 ^ 32 := by omega
      rw [ih (by rw [toNat_succ hone]; unfold fresh; omega), toNat_succ hone]
      unfold fresh
      omega

theorem rebind_bound (hmem : bound ∈ (state.rebind nextSlot items).2) :
    ∃ item ∈ items, bound.1.item = item.item ∧ bound.1.type = item.type ∧
      (state.prior item = some bound ∨ state.prior item = none ∧
        (nextSlot.toNat + state.fresh items < 2 ^ 32 → nextSlot.toNat ≤ bound.1.slot.toNat ∧
          bound.1.slot.toNat < nextSlot.toNat + state.fresh items)) := by
  induction items generalizing nextSlot with
  | nil => cases hmem
  | cons item items ih =>
    unfold rebind at hmem
    unfold fresh
    rw [List.countP_cons]
    cases hprior : state.prior item with
    | some kept =>
      simp only [hprior, Option.isNone_some, Bool.false_eq_true, if_false, Nat.add_zero] at hmem ⊢
      rcases List.mem_cons.mp hmem with rfl | hmem
      · obtain ⟨-, htype⟩ := Option.filter_eq_some_iff.mp hprior
        exact ⟨item, List.mem_cons_self, (prior_spec hprior).2, of_decide_eq_true htype, .inl hprior⟩
      · obtain ⟨other, hother, hbound⟩ := ih hmem
        exact ⟨other, List.mem_cons_of_mem _ hother, hbound⟩
    | none =>
      simp only [hprior, Option.isNone_none, if_true] at hmem ⊢
      rcases List.mem_cons.mp hmem with rfl | hmem
      · refine ⟨item, List.mem_cons_self, rfl, rfl, .inr ⟨hprior, fun _ => ⟨le_rfl, ?_⟩⟩⟩
        exact Nat.lt_add_of_pos_right (Nat.succ_pos _)
      · obtain ⟨other, hother, hitem, htype, hbound⟩ := ih hmem
        refine ⟨other, List.mem_cons_of_mem _ hother, hitem, htype, hbound.imp_right fun hnew => ?_⟩
        refine ⟨hnew.1, fun hroom => ?_⟩
        have hslot := hnew.2
        rw [toNat_succ (by omega)] at hslot
        unfold fresh at hslot
        omega

theorem rebind_mem (h : nextSlot.toNat + state.fresh items < 2 ^ 32)
    (hmem : bound ∈ (state.rebind nextSlot items).2) :
    bound.1.item ∈ items.map HalTelemetryResolvedItem.item ∧
      (bound ∈ state.bindings.zip state.values ∨ nextSlot.toNat ≤ bound.1.slot.toNat ∧
        bound.1.slot.toNat < nextSlot.toNat + state.fresh items) := by
  obtain ⟨item, hitem, hname, -, hbound⟩ := rebind_bound hmem
  refine ⟨hname ▸ List.mem_map_of_mem hitem, ?_⟩
  exact hbound.imp (fun hkept => (prior_spec hkept).1) fun hnew => hnew.2 h

theorem mem_bindings (h : bound ∈ state.bindings.zip state.values) : bound.1 ∈ state.bindings :=
  (List.of_mem_zip h).1

theorem rebind_distinct (hvalid : state.Valid) (hnext : state.nextSlot.toNat ≤ nextSlot.toNat)
    (hitems : (items.map HalTelemetryResolvedItem.item).Nodup)
    (h : nextSlot.toNat + state.fresh items < 2 ^ 32) :
    ((state.rebind nextSlot items).2.map fun bound => bound.1.slot).Nodup := by
  induction items generalizing nextSlot with
  | nil => exact List.nodup_nil
  | cons item items ih =>
    obtain ⟨hitem, hrest⟩ := List.nodup_cons.mp hitems
    unfold fresh at h
    rw [List.countP_cons] at h
    unfold rebind
    cases hprior : state.prior item with
    | some kept =>
      simp only [hprior, Option.isNone_some, Bool.false_eq_true, if_false, Nat.add_zero] at h ⊢
      obtain ⟨hold, hsame⟩ := prior_spec hprior
      refine List.nodup_cons.mpr ⟨fun hmem => ?_, ih hnext hrest h⟩
      obtain ⟨bound, hbound, hslot⟩ := List.mem_map.mp hmem
      dsimp only at hslot
      obtain ⟨hnamed, hkept | ⟨hnew, -⟩⟩ := rebind_mem h hbound
      · -- equal slots are the same binding, which is for one item only
        have heq := List.inj_on_of_nodup_map hvalid.distinct (mem_bindings hkept) (mem_bindings hold) hslot
        rw [heq, hsame] at hnamed
        exact hitem hnamed
      · have hlt := hvalid.taken _ (mem_bindings hold)
        rw [← hslot] at hlt
        omega
    | none =>
      simp only [hprior, Option.isNone_none, if_true] at h ⊢
      have hone : nextSlot.toNat + 1 < 2 ^ 32 := by omega
      have hroom : (nextSlot + 1).toNat + state.fresh items < 2 ^ 32 := by
        rw [toNat_succ hone]
        unfold fresh
        omega
      refine List.nodup_cons.mpr ⟨fun hmem => ?_, ih (by rw [toNat_succ hone]; omega) hrest hroom⟩
      obtain ⟨bound, hbound, hslot⟩ := List.mem_map.mp hmem
      dsimp only at hslot
      obtain ⟨-, hkept | ⟨hnew, -⟩⟩ := rebind_mem hroom hbound
      · have hlt := hvalid.taken _ (mem_bindings hkept)
        rw [hslot] at hlt
        omega
      · rw [hslot, toNat_succ hone] at hnew
        omega

theorem Valid.update (hvalid : state.Valid) (hitems : (items.map HalTelemetryResolvedItem.item).Nodup)
    (h : state.nextSlot.toNat + state.fresh items < 2 ^ 32) (samplePeriod : ℕ) :
    (state.update items samplePeriod).Valid := by
  refine ⟨?_, ?_, ?_, Nat.succ_pos _⟩
  · simp only [HalTelemetryState.update, List.length_map]
  · have hdistinct := rebind_distinct hvalid le_rfl hitems h
    rw [HalTelemetryState.update, List.map_map]
    exact hdistinct
  · intro binding hbinding
    obtain ⟨bound, hbound, rfl⟩ := List.mem_map.mp hbinding
    show bound.1.slot.toNat < (state.rebind state.nextSlot items).1.toNat
    rw [rebind_nextSlot h]
    rcases (rebind_mem h hbound).2 with hkept | ⟨-, hlt⟩
    · have hlt := hvalid.taken _ (mem_bindings hkept)
      omega
    · exact hlt

theorem doUpdate_spec (h : state.doUpdateValueSubscription request = .ok updated) :
    ∃ items period, resolveSubscriptionItems request.types state.bindings request.items = .ok items ∧
      updated = state.update items period := by
  unfold doUpdateValueSubscription at h
  split at h
  · cases h
  · split at h
    · cases h
    · next items hresolved =>
      split at h
      · cases h
      · next period _ =>
        obtain ⟨-, hupdated⟩ := (ite_eq_iff.mp h).resolve_right fun hneg => nomatch hneg.2
        exact ⟨items, period, hresolved, (Except.ok.inj hupdated).symm⟩

theorem Valid.doUpdate (hvalid : state.Valid)
    (hroom : state.nextSlot.toNat + state.newSlots request < 2 ^ 32)
    (h : state.doUpdateValueSubscription request = .ok updated) :
    updated.Valid ∧ updated.revision = state.revision + 1 := by
  obtain ⟨items, period, hresolved, rfl⟩ := doUpdate_spec h
  unfold newSlots at hroom
  simp only [hresolved] at hroom
  exact ⟨hvalid.update (resolveSubscriptionItems_spec hresolved).1 hroom period, rfl⟩

theorem doCreate_spec {created : HalTelemetryState V} (h : doCreateValueSubscription request = .ok created) :
    ∃ items period, resolveSubscriptionItems request.types [] request.items = .ok items ∧
      created = create items period := by
  unfold doCreateValueSubscription at h
  split at h
  · cases h
  · split at h
    · cases h
    · next items hresolved =>
      split at h
      · cases h
      · next period _ =>
        obtain ⟨-, hcreated⟩ := (ite_eq_iff.mp h).resolve_right fun hneg => nomatch hneg.2
        exact ⟨items, period, hresolved, (Except.ok.inj hcreated).symm⟩

theorem valid_doCreate {created : HalTelemetryState V}
    (h : doCreateValueSubscription request = .ok created) : created.Valid := by
  obtain ⟨items, period, hresolved, rfl⟩ := doCreate_spec h
  exact valid_create (resolveSubscriptionItems_spec hresolved).2.1 period

section Publish

variable [DecidableEq V] {revision : ℕ} {values : List (Option V)} {published : HalTelemetryState V}

theorem publish_spec (h : state.publish revision values = some published) :
    revision = state.revision ∧ values.length = state.values.length ∧
      published = { state with values, sampled := true, sequence := state.sequence + 1 } := by
  obtain ⟨hguard, h⟩ := Option.ite_none_left_eq_some.mp h
  obtain ⟨-, h⟩ := Option.ite_none_left_eq_some.mp h
  obtain ⟨hrevision, hlength⟩ := not_or.mp hguard
  exact ⟨(Decidable.of_not_not hrevision).symm, (Decidable.of_not_not hlength).symm,
    (Option.some.inj h).symm⟩

theorem Valid.publish (hvalid : state.Valid)
    (h : state.publish revision values = some published) : published.Valid := by
  obtain ⟨-, hlength, rfl⟩ := publish_spec h
  exact { hvalid with lengths := hvalid.lengths.trans hlength.symm }

end Publish

end HalTelemetryState

namespace HalTelemetrySnapshot

variable {snapshot last : HalTelemetrySnapshot V} {map : UInt32 → Option (Option V)}

structure Proper (snapshot : HalTelemetrySnapshot V) : Prop where
  lengths : snapshot.bindings.length = snapshot.values.length
  distinct : (snapshot.bindings.map HalTelemetryBinding.slot).Nodup

variable {entry : UInt32 × Option V} {session : HalSession V}

theorem Proper.entry_eq (h : snapshot.Proper) {bound : HalTelemetryBinding × Option V}
    (hbound : bound ∈ snapshot.bindings.zip snapshot.values)
    (hentry : entry ∈ snapshot.entries) (hslot : entry.1 = bound.1.slot) : entry.2 = bound.2 := by
  obtain ⟨other, hother, rfl⟩ := List.mem_map.mp hentry
  have hslots : ((snapshot.bindings.zip snapshot.values).map fun bound => bound.1.slot).Nodup := by
    have hfst := List.map_fst_zip (Nat.le_of_eq h.lengths)
    have hdistinct := h.distinct
    rw [← hfst, List.map_map] at hdistinct
    exact hdistinct
  rw [List.inj_on_of_nodup_map hslots hother hbound hslot]

theorem entries_slot (h : entry ∈ snapshot.entries) :
    entry.1 ∈ snapshot.bindings.map HalTelemetryBinding.slot := by
  obtain ⟨bound, hbound, rfl⟩ := List.mem_map.mp h
  exact List.mem_map_of_mem (List.of_mem_zip hbound).1

theorem Proper.matches_putAll (h : snapshot.Proper) {entries : List (UInt32 × Option V)}
    (hentries : ∀ entry ∈ entries, entry ∈ snapshot.entries)
    (hmap : ∀ bound ∈ snapshot.bindings.zip snapshot.values,
      map bound.1.slot = some bound.2 ∨ (bound.1.slot, bound.2) ∈ entries)
    (hother : ∀ slot ∉ snapshot.bindings.map HalTelemetryBinding.slot, map slot = none) :
    snapshot.Matches (putAll Prod.fst Prod.snd entries map) := by
  constructor
  · intro bound hbound
    apply putAll_agree
    · exact fun entry hentry hslot => h.entry_eq hbound (hentries entry hentry) hslot
    · exact (hmap bound hbound).imp_right fun hentry => List.mem_map.mpr ⟨_, hentry, rfl⟩
  · intro slot hslot
    rw [putAll_other, hother slot hslot]
    intro hmem
    obtain ⟨entry, hentry, rfl⟩ := List.mem_map.mp hmem
    exact hslot (entries_slot (hentries entry hentry))

theorem Proper.matches_replacement (h : snapshot.Proper) (map : UInt32 → Option (Option V)) :
    snapshot.Matches ((snapshot.encodeHalFrame true []).apply map) :=
  h.matches_putAll (fun _ hentry => hentry)
    (fun bound hbound => .inr (List.mem_map.mpr ⟨bound, hbound, rfl⟩)) fun _ _ => rfl

theorem mem_changed_entries {changed : List ℕ}
    (h : entry ∈ changed.filterMap fun index => snapshot.entries[index]?) :
    entry ∈ snapshot.entries := by
  obtain ⟨index, -, hentry⟩ := List.mem_filterMap.mp h
  exact List.mem_of_getElem? hentry

theorem Proper.matches_delta [DecidableEq V] (h : snapshot.Proper)
    (hlast : last.Matches map) (hbindings : snapshot.bindings = last.bindings)
    (hvalues : session.values = last.values) :
    snapshot.Matches
      ((snapshot.encodeHalFrame false (session.changed snapshot)).apply map) := by
  apply h.matches_putAll
  · exact fun entry hentry => mem_changed_entries hentry
  · intro bound hbound
    obtain ⟨index, hindex⟩ := List.mem_iff_getElem?.mp hbound
    obtain ⟨hbinding, hvalue⟩ := List.getElem?_zip_eq_some.mp hindex
    by_cases hsame : session.values[index]? = some bound.2
    · left
      rw [hvalues] at hsame
      rw [hbindings] at hbinding
      exact hlast.1 bound (List.mem_of_getElem? (List.getElem?_zip_eq_some.mpr ⟨hbinding, hsame⟩))
    · right
      apply List.mem_filterMap.mpr
      refine ⟨index, ?_, ?_⟩
      · apply List.mem_filter.mpr
        refine ⟨List.mem_range.mpr (List.getElem?_eq_some_iff.mp hvalue).1, ?_⟩
        rw [decide_eq_true_eq, hvalue]
        exact .inr fun heq => hsame heq.symm
      · rw [entries, List.getElem?_map, hindex]
        rfl
  · intro slot hslot
    rw [hbindings] at hslot
    exact hlast.2 slot hslot

theorem values_eq_of_changed_nil [DecidableEq V]
    (h : session.changed snapshot = []) (hlength : session.values.length = snapshot.values.length) :
    session.values = snapshot.values := by
  apply List.ext_getElem? 
  intro index
  by_cases hindex : index < snapshot.values.length
  · have hnot := List.filter_eq_nil_iff.mp h index (List.mem_range.mpr hindex)
    rw [decide_eq_true_eq, not_or, not_not] at hnot
    exact hnot.2.symm
  · rw [List.getElem?_eq_none (by omega), List.getElem?_eq_none (by omega)]

end HalTelemetrySnapshot

theorem HalTelemetryState.Valid.proper {state : HalTelemetryState V} (h : state.Valid) :
    state.snapshot.Proper :=
  ⟨h.lengths, h.distinct⟩

end LinuxcncCtrl
