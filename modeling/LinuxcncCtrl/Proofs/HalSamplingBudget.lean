import LinuxcncCtrl.Lib.SharedRate
import LinuxcncCtrl.Sanity.HalTelemetryStore

/-! The sampling budget of the HAL value subscriptions. Subscriptions share items, and an item is sampled at the
fastest period of those that have it, so what a subscription adds depends on the others. -/

namespace LinuxcncCtrl

open Lib

variable {V : Type}

/-- Samples per second at a period in milliseconds, rounded up. -/
def samplesPerSecond (period : ℕ) : ℕ := 1000 ⌈/⌉ period

theorem samplesPerSecond_antitone (p q : ℕ) (hp : 0 < p) (hpq : p ≤ q) :
    samplesPerSecond q ≤ samplesPerSecond p := by
  unfold samplesPerSecond
  rw [ceilDiv_le_iff_le_mul (hp.trans_le hpq)]
  calc 1000 ≤ p * (1000 ⌈/⌉ p) := (ceilDiv_le_iff_le_mul hp).mp le_rfl
    _ ≤ q * (1000 ⌈/⌉ p) := Nat.mul_le_mul_right _ hpq

def Accepted (period : ℕ) : Prop := 50 ≤ period ∧ period ≤ 60000

theorem accepted_of_subscriptionPeriod {value period : ℕ} (h : subscriptionPeriod value = some period) :
    Accepted period := by
  unfold subscriptionPeriod at h
  dsimp only at h
  split_ifs at h with hvalue <;> cases h <;> unfold Accepted <;> omega

theorem rate_toNat {milliseconds : UInt64} (h : Accepted milliseconds.toNat) :
    ((1000 + milliseconds - 1) / milliseconds).toNat = samplesPerSecond milliseconds.toNat := by
  obtain ⟨hlow, hhigh⟩ := h
  have hsum : (1000 + milliseconds).toNat = 1000 + milliseconds.toNat := by
    rw [UInt64.toNat_add]
    exact Nat.mod_eq_of_lt (by simp; omega)
  have hone : (1 : UInt64) ≤ 1000 + milliseconds := by
    rw [UInt64.le_iff_toNat_le, hsum]
    simp
    omega
  unfold samplesPerSecond
  rw [UInt64.toNat_div, UInt64.toNat_sub_of_le _ _ hone, hsum, Nat.ceilDiv_eq_add_pred_div]
  rfl

theorem chargeRates_spec {periods : List UInt64} {cost : UInt64} (hcost : cost.toNat ≤ 20480)
    (hperiods : ∀ period ∈ periods, Accepted period.toNat) :
    ((chargeRates cost periods).1 = true ↔
        cost.toNat + (periods.map fun period => samplesPerSecond period.toNat).sum ≤ 20480) ∧
      ∀ subtracted ∈ (chargeRates cost periods).2, subtracted ≤ kMaxSamplesPerSecond := by
  have hle : cost ≤ kMaxSamplesPerSecond := UInt64.le_iff_toNat_le.mpr hcost
  induction periods generalizing cost with
  | nil =>
    refine ⟨iff_of_true rfl (by simpa using hcost), ?_⟩
    intro subtracted hmem
    cases hmem
  | cons period periods ih =>
    obtain ⟨hfirst, hrest⟩ := List.forall_mem_cons.mp hperiods
    have hrate := rate_toNat hfirst
    have hroom : (kMaxSamplesPerSecond - cost).toNat = 20480 - cost.toNat :=
      UInt64.toNat_sub_of_le _ _ hle
    unfold chargeRates
    dsimp only
    rw [List.map_cons, List.sum_cons]
    split_ifs with hover
    · rw [UInt64.lt_iff_toNat_lt, hroom, hrate] at hover
      refine ⟨iff_of_false not_false (by omega), ?_⟩
      intro subtracted hmem
      rw [List.mem_singleton.mp hmem]
      exact hle
    · rw [UInt64.lt_iff_toNat_lt, hroom, hrate] at hover
      have hsum : (cost + (1000 + period - 1) / period).toNat =
          cost.toNat + samplesPerSecond period.toNat := by
        rw [UInt64.toNat_add, hrate]
        exact Nat.mod_eq_of_lt (by omega)
      have hnext : (cost + (1000 + period - 1) / period).toNat ≤ 20480 := by omega
      obtain ⟨hresult, hsubtracted⟩ := ih hnext hrest (UInt64.le_iff_toNat_le.mpr hnext)
      constructor
      · rw [hresult, hsum, add_assoc]
      · exact List.forall_mem_cons.mpr ⟨hle, hsubtracted⟩

def HalTelemetryEntry.demand (entry : HalTelemetryEntry V) : List HalTelemetryReference × ℕ :=
  (entry.state.bindings.map HalTelemetryBinding.item, entry.state.samplePeriod)

def othersOf (states : List (HalTelemetryEntry V)) (replacing : Option HalName) :
    List (HalTelemetryEntry V) :=
  states.filter fun entry => decide (replacing ≠ some entry.id)

/-- What the check judges: the demands of the other subscriptions and the new one. -/
def judged (states : List (HalTelemetryEntry V)) (replacing : Option HalName)
    (items : List HalTelemetryResolvedItem) (samplePeriod : ℕ) : List (List HalTelemetryReference × ℕ) :=
  (othersOf states replacing).map HalTelemetryEntry.demand ++
    [(items.map HalTelemetryResolvedItem.item, samplePeriod)]

def keyed (demand : List HalTelemetryReference × ℕ) : List (List Char) × ℕ :=
  (demand.1.map HalTelemetryReference.key, demand.2)

theorem tracks_include {map : AList fun _ : List Char => ℕ} {demands : List (List HalTelemetryReference × ℕ)}
    (h : Tracks map (periodsOf (demands.map keyed))) (items : List HalTelemetryReference) (period : ℕ) :
    Tracks (items.foldl (includeItem period) map)
      (periodsOf ((demands ++ [(items, period)]).map keyed)) := by
  have hfold := h.foldl (items.map HalTelemetryReference.key) period
  rw [List.foldl_map] at hfold
  rw [List.map_append]
  exact hfold

theorem fastestPeriods_tracks (states : List (HalTelemetryEntry V)) (replacing : Option HalName)
    (items : List HalTelemetryResolvedItem) (samplePeriod : ℕ) :
    Tracks (fastestPeriods states replacing items samplePeriod)
      (periodsOf ((judged states replacing items samplePeriod).map keyed)) := by
  have hstates : ∀ (states : List (HalTelemetryEntry V)) (map : AList fun _ : List Char => ℕ)
      (demands : List (List HalTelemetryReference × ℕ)), Tracks map (periodsOf (demands.map keyed)) →
      Tracks (states.foldl (fun fastest entry =>
        if replacing = some entry.id then fastest
        else
          (entry.state.bindings.map HalTelemetryBinding.item).foldl
            (includeItem entry.state.samplePeriod) fastest) map)
        (periodsOf ((demands ++ (othersOf states replacing).map HalTelemetryEntry.demand).map keyed)) := by
    intro states
    induction states with
    | nil =>
      intro map demands h
      rw [show othersOf [] replacing = ([] : List (HalTelemetryEntry V)) from rfl, List.map_nil,
        List.append_nil]
      exact h
    | cons entry states ih =>
      intro map demands h
      rw [List.foldl_cons]
      unfold othersOf
      by_cases hreplaced : replacing = some entry.id
      · rw [if_pos hreplaced, List.filter_cons_of_neg (by simpa using hreplaced)]
        exact ih map demands h
      · rw [if_neg hreplaced, List.filter_cons_of_pos (by simpa using hreplaced), List.map_cons,
          List.append_cons]
        exact ih _ _ (tracks_include h _ _)
  have hempty : Tracks (∅ : AList fun _ : List Char => ℕ)
      (periodsOf (([] : List (List HalTelemetryReference × ℕ)).map keyed)) := by
    have hperiods : periodsOf (([] : List (List HalTelemetryReference × ℕ)).map keyed) = fun _ => ∅ := by
      funext k
      simp [periodsOf]
    rw [hperiods]
    exact tracks_empty
  exact tracks_include (hstates states ∅ [] hempty) _ _

/-- The total rate over distinct items, of the subscriptions as they would be. -/
noncomputable def totalRate (demands : List (List HalTelemetryReference × ℕ)) : ℕ :=
  sharedRate samplesPerSecond demands

/-- Whatever order the map is visited in, the check is that the total is within the bound. -/
theorem chargeRates_fastest {states : List (HalTelemetryEntry V)} {replacing : Option HalName}
    {items : List HalTelemetryResolvedItem} {samplePeriod : ℕ}
    (hpaced : ∀ demand ∈ judged states replacing items samplePeriod, Accepted demand.2)
    {order : List UInt64}
    (horder : order.Perm ((fastestPeriods states replacing items samplePeriod).entries.map fun entry =>
      UInt64.ofNat entry.2)) :
    ((chargeRates 0 order).1 = true ↔ totalRate (judged states replacing items samplePeriod) ≤ 20480) ∧
      ∀ subtracted ∈ (chargeRates 0 order).2, subtracted ≤ kMaxSamplesPerSecond := by
  have htracks := fastestPeriods_tracks states replacing items samplePeriod
  have hentries : ∀ entry ∈ (fastestPeriods states replacing items samplePeriod).entries,
      Accepted entry.2 := by
    intro entry hentry
    obtain ⟨⟨demand, hdemand, -, hperiod⟩, -⟩ :=
      (htracks entry.1 entry.2).mp (AList.mem_lookup_iff.mpr hentry)
    obtain ⟨unkeyed, hunkeyed, rfl⟩ := List.mem_map.mp hdemand
    rw [← hperiod]
    exact hpaced unkeyed hunkeyed
  have htoNat : ∀ entry ∈ (fastestPeriods states replacing items samplePeriod).entries,
      (UInt64.ofNat entry.2).toNat = entry.2 := by
    intro entry hentry
    have haccepted := (hentries entry hentry).2
    exact UInt64.toNat_ofNat_of_lt' (haccepted.trans_lt (by decide))
  have hperiods : ∀ period ∈ order, Accepted period.toNat := by
    intro period hperiod
    obtain ⟨entry, hentry, rfl⟩ := List.mem_map.mp (horder.mem_iff.mp hperiod)
    rw [htoNat entry hentry]
    exact hentries entry hentry
  have hsum : (order.map fun period => samplesPerSecond period.toNat).sum =
      totalRate (judged states replacing items samplePeriod) := by
    rw [(horder.map _).sum_eq, List.map_map]
    have hkeyed : totalRate (judged states replacing items samplePeriod) =
        sharedRate samplesPerSecond ((judged states replacing items samplePeriod).map keyed) :=
      (sharedRate_map (fun _ _ => key_injective) samplesPerSecond _).symm
    rw [hkeyed, ← htracks.sum_rates]
    congr 1
    apply List.map_congr_left
    intro entry hentry
    rw [Function.comp_apply, htoNat entry hentry]
  have hzero : (0 : UInt64).toNat ≤ 20480 := by decide
  obtain ⟨hresult, hsubtracted⟩ := chargeRates_spec hzero hperiods
  rw [hsum, UInt64.toNat_zero, Nat.zero_add] at hresult
  exact ⟨hresult, hsubtracted⟩

namespace HalValueTelemetry

variable {store store' store'' : HalValueTelemetry V} {id : HalName} {entry old : HalTelemetryEntry V}

/-- Every period is one that was accepted, and the subscriptions are within the budget. -/
structure Affordable (store : HalValueTelemetry V) : Prop where
  paced : ∀ entry ∈ store.states, Accepted entry.state.samplePeriod
  within : totalRate (store.states.map HalTelemetryEntry.demand) ≤ 20480
  emptied : store.closed = true → store.states = []

structure Shrinks (store store' : HalValueTelemetry V) : Prop where
  demands : ∀ entry' ∈ store'.states, ∃ entry ∈ store.states, entry.demand = entry'.demand
  closed : store'.closed = store.closed

theorem Shrinks.refl (store : HalValueTelemetry V) : store.Shrinks store :=
  ⟨fun entry hentry => ⟨entry, hentry, rfl⟩, rfl⟩

theorem Shrinks.trans (h : store.Shrinks store') (h' : store'.Shrinks store'') : store.Shrinks store'' := by
  refine ⟨fun entry'' hentry'' => ?_, h'.closed.trans h.closed⟩
  obtain ⟨entry', hentry', hdemand'⟩ := h'.demands entry'' hentry''
  obtain ⟨entry, hentry, hdemand⟩ := h.demands entry' hentry'
  exact ⟨entry, hentry, hdemand.trans hdemand'⟩

theorem totalRate_mono {demands demands' : List (List HalTelemetryReference × ℕ)}
    (haccepted : ∀ demand ∈ demands', Accepted demand.2) (h : ∀ demand ∈ demands, demand ∈ demands') :
    totalRate demands ≤ totalRate demands' := by
  refine sharedRate_mono samplesPerSecond_antitone (fun demand hdemand => ?_) h
  exact Nat.lt_of_lt_of_le (by decide) (haccepted demand hdemand).1

theorem Affordable.accepted (h : store.Affordable) :
    ∀ demand ∈ store.states.map HalTelemetryEntry.demand, Accepted demand.2 := by
  intro demand hdemand
  obtain ⟨entry, hentry, rfl⟩ := List.mem_map.mp hdemand
  exact h.paced entry hentry

theorem Affordable.shrinks (h : store.Affordable) (hshrinks : store.Shrinks store') : store'.Affordable := by
  refine ⟨fun entry' hentry' => ?_, ?_, fun hclosed => ?_⟩
  · obtain ⟨entry, hentry, hdemand⟩ := hshrinks.demands entry' hentry'
    have hperiod : entry.state.samplePeriod = entry'.state.samplePeriod := congrArg Prod.snd hdemand
    rw [← hperiod]
    exact h.paced entry hentry
  · refine le_trans (totalRate_mono h.accepted fun demand hdemand => ?_) h.within
    obtain ⟨entry', hentry', rfl⟩ := List.mem_map.mp hdemand
    obtain ⟨entry, hentry, hdemand⟩ := hshrinks.demands entry' hentry'
    exact List.mem_map.mpr ⟨entry, hentry, hdemand⟩
  · apply List.eq_nil_iff_forall_not_mem.mpr
    intro entry' hentry'
    obtain ⟨entry, hentry, -⟩ := hshrinks.demands entry' hentry'
    rw [h.emptied (hshrinks.closed ▸ hclosed)] at hentry
    cases hentry

theorem shrinks_set (hold : old ∈ store.states) (hdemand : old.demand = entry.demand) :
    store.Shrinks (store.set entry) := by
  refine ⟨fun other hother => ?_, rfl⟩
  rcases mem_set hother with rfl | ⟨hmem, -⟩
  · exact ⟨old, hold, hdemand⟩
  · exact ⟨other, hmem, rfl⟩

section

variable (store : HalValueTelemetry V)

theorem shrinks_expire (now : ℤ) : store.Shrinks (store.expireLocked now) :=
  ⟨fun other hother => ⟨other, (mem_expire hother).1, rfl⟩, rfl⟩

theorem shrinks_claim (token : HalName) (now due : ℤ) : store.Shrinks (store.claim token now due).1 := by
  have hexpire := shrinks_expire store now
  unfold claim
  dsimp only
  split
  next =>
    split
    next => exact hexpire
    next entry hfind =>
      split_ifs
      · exact hexpire
      · exact hexpire.trans (shrinks_set (find_mem hfind).1 rfl)
  next => exact hexpire

theorem shrinks_detach (id : HalName) (now : ℤ) : store.Shrinks (store.detach id now).1 := by
  unfold detach
  split
  next => exact .refl store
  next entry hfind =>
    split_ifs
    · exact .refl store
    · exact shrinks_set (find_mem hfind).1 rfl

theorem shrinks_erase (id : HalName) : store.Shrinks (store.erase id).1 := by
  unfold erase
  split
  next => exact .refl store
  next entry hfind => exact ⟨fun other hother => ⟨other, (List.mem_filter.mp hother).1, rfl⟩, rfl⟩

theorem shrinks_due (now : ℤ) : store.Shrinks (store.due now).1 := by
  refine (shrinks_expire store now).trans ⟨fun other hother => ?_, rfl⟩
  obtain ⟨old, hold, rfl⟩ := List.mem_map.mp hother
  refine ⟨old, hold, ?_⟩
  split_ifs
  · rfl
  · rfl

theorem shrinks_publish [DecidableEq V] (id : HalName) (revision : ℕ) (values : List (Option V)) :
    store.Shrinks (store.publish id revision values) := by
  unfold publish
  split
  next => exact .refl store
  next entry hfind =>
    split
    next => exact .refl store
    next state hpublish =>
      obtain ⟨-, -, rfl⟩ := HalTelemetryState.publish_spec hpublish
      exact shrinks_set (find_mem hfind).1 rfl

end

section Check

variable {items : List HalTelemetryResolvedItem} {samplePeriod : ℕ} {replacing : Option HalName}

section

variable (h : store.Affordable) (hperiod : Accepted samplePeriod)

include h hperiod

theorem Affordable.judged : ∀ demand ∈ judged store.states replacing items samplePeriod, Accepted demand.2 := by
  intro demand hdemand
  rcases List.mem_append.mp hdemand with hother | hnew
  · obtain ⟨entry, hentry, rfl⟩ := List.mem_map.mp hother
    exact h.paced entry (List.mem_filter.mp hentry).1
  · rw [List.mem_singleton.mp hnew]
    exact hperiod

theorem Affordable.within_iff :
    store.withinSamplingBudgetLocked replacing items samplePeriod = true ↔
      totalRate (LinuxcncCtrl.judged store.states replacing items samplePeriod) ≤ 20480 :=
  (chargeRates_fastest (h.judged hperiod) (List.Perm.refl _)).1

theorem Affordable.judged_within
    (hwithin : store.withinSamplingBudgetLocked replacing items samplePeriod = true)
    (hdemands : ∀ entry ∈ store'.states,
      entry.demand ∈ LinuxcncCtrl.judged store.states replacing items samplePeriod)
    (hopen : store'.closed = false) : store'.Affordable := by
  have haccepted : ∀ demand ∈ LinuxcncCtrl.judged store.states replacing items samplePeriod,
      Accepted demand.2 := h.judged hperiod
  refine ⟨fun entry hentry => haccepted entry.demand (hdemands entry hentry), ?_, fun hclosed => ?_⟩
  · refine le_trans (totalRate_mono haccepted fun demand hdemand => ?_) ((h.within_iff hperiod).mp hwithin)
    obtain ⟨entry, hentry, rfl⟩ := List.mem_map.mp hdemand
    exact hdemands entry hentry
  · rw [hopen] at hclosed
    cases hclosed

end

theorem othersOf_none (states : List (HalTelemetryEntry V)) : othersOf states none = states :=
  List.filter_eq_self.mpr fun _ _ => rfl

theorem Affordable.create (h : store.Affordable) (hperiod : Accepted samplePeriod) (now deadline due : ℤ)
    (id token : HalName) : (store.create items samplePeriod now deadline due id token).1.Affordable := by
  have hexpired := h.shrinks (shrinks_expire store now)
  unfold HalValueTelemetry.create
  dsimp only
  split_ifs with hclosed hfull hbudget
  · exact h
  · exact hexpired
  · exact hexpired
  · refine hexpired.judged_within hperiod (Bool.eq_true_of_not_eq_false hbudget) ?_
      (Bool.eq_false_of_not_eq_true hclosed)
    intro entry hentry
    unfold LinuxcncCtrl.judged
    rw [othersOf_none]
    rcases List.mem_append.mp hentry with hold | hnew
    · exact List.mem_append_left _ (List.mem_map_of_mem hold)
    · apply List.mem_append_right
      rw [List.mem_singleton.mp hnew, List.mem_singleton]
      exact Prod.ext_iff.mpr (HalTelemetryState.create_spec items samplePeriod)

theorem Affordable.update (h : store.Affordable) (hperiod : Accepted samplePeriod) (id : HalName)
    (expectedRevision : ℕ) (due : ℤ) :
    (store.update id expectedRevision items samplePeriod due).1.Affordable := by
  unfold HalValueTelemetry.update
  split
  next entry hopen hfind =>
    split_ifs with hrevision hbudget
    · exact h
    · exact h
    · refine h.judged_within hperiod (Bool.eq_true_of_not_eq_false hbudget) ?_ hopen
      intro other hother
      rcases mem_set hother with rfl | ⟨hmem, hne⟩
      · apply List.mem_append_right
        rw [List.mem_singleton]
        exact Prod.ext (HalTelemetryState.update_items entry.state items samplePeriod) rfl
      · apply List.mem_append_left
        refine List.mem_map_of_mem (List.mem_filter.mpr ⟨hmem, decide_eq_true fun heq => hne ?_⟩)
        exact (Option.some.inj heq).symm.trans (find_mem hfind).2.symm
  next => exact h

end Check

theorem Affordable.step [DecidableEq V] (h : store.Affordable) {action : HalTelemetryAction V}
    (hstep : store.step action = some store') : store'.Affordable := by
  cases action with
  | create items samplePeriodMs now deadline due id token =>
    unfold HalValueTelemetry.step at hstep
    dsimp only at hstep
    split at hstep
    next =>
      cases hstep
      exact h
    next period hperiod =>
      split_ifs at hstep
      cases hstep
      exact h.create (accepted_of_subscriptionPeriod hperiod) now deadline due id token
  | update id expectedRevision items samplePeriodMs due =>
    unfold HalValueTelemetry.step at hstep
    dsimp only at hstep
    split at hstep
    next =>
      cases hstep
      exact h
    next period hperiod =>
      cases hstep
      exact h.update (accepted_of_subscriptionPeriod hperiod) id expectedRevision due
  | claim token now due =>
    cases hstep
    exact h.shrinks (shrinks_claim store token now due)
  | detach id now =>
    cases hstep
    exact h.shrinks (shrinks_detach store id now)
  | erase id =>
    cases hstep
    exact h.shrinks (shrinks_erase store id)
  | due now =>
    cases hstep
    exact h.shrinks (shrinks_due store now)
  | publish id revision values =>
    cases hstep
    exact h.shrinks (shrinks_publish store id revision values)
  | close =>
    cases hstep
    unfold HalValueTelemetry.close
    split_ifs
    · exact h
    · refine ⟨?_, ?_, fun _ => rfl⟩
      · intro entry hentry
        cases hentry
      · exact Nat.zero_le _

theorem affordable_initial (capacity : ℕ) (attachmentTtl : ℤ) :
    ({ capacity, attachmentTtl } : HalValueTelemetry V).Affordable := by
  refine ⟨?_, Nat.zero_le _, fun _ => rfl⟩
  intro entry hentry
  cases hentry

variable {items : List HalTelemetryResolvedItem} {samplePeriod : ℕ} {due : ℤ}

theorem update_refused {expectedRevision : ℕ}
    (h : (store.update id expectedRevision items samplePeriod due).2 = none) :
    (store.update id expectedRevision items samplePeriod due).1 = store := by
  unfold HalValueTelemetry.update at h ⊢
  split
  next entry hopen hfind =>
    simp only [hopen, hfind] at h
    split_ifs at h ⊢
    · rfl
    · rfl
  next => rfl

/-- An update of a subscription at its own revision is refused by the budget alone. -/
theorem update_eq_none_iff {entry : HalTelemetryEntry V} (hopen : store.closed = false)
    (hfind : store.find id = some entry) :
    (store.update id entry.state.revision items samplePeriod due).2 = none ↔
      store.withinSamplingBudgetLocked (some id) items samplePeriod = false := by
  unfold HalValueTelemetry.update
  simp only [hopen, hfind]
  rw [if_neg (not_not_intro rfl)]
  split_ifs with hbudget
  · simp [hbudget]
  · simp [hbudget]

theorem Affordable.create_refused (h : store.Affordable) {now deadline : ℤ} {token : HalName}
    (hrefused : (store.create items samplePeriod now deadline due id token).2 = none) :
    (store.create items samplePeriod now deadline due id token).1.states =
      store.states.filter fun entry => !entry.expired now := by
  unfold HalValueTelemetry.create at hrefused ⊢
  dsimp only at hrefused ⊢
  split_ifs at hrefused ⊢ with hclosed
  · rw [h.emptied hclosed]
    rfl
  · rfl
  · rfl

theorem affordable_run [DecidableEq V] {capacity : ℕ} {attachmentTtl : ℤ}
    {actions : List (HalTelemetryAction V)} (hrun : Run step { capacity, attachmentTtl } actions store) :
    store.Affordable := by
  apply hrun.invariant
  · exact affordable_initial capacity attachmentTtl
  · intro store action store' hstep h
    exact h.step hstep

/-- In every state that operations can reach, the subscriptions are within the sampling budget. The check, made
with any accepted period, over the subscriptions and then over the map in any order, never subtracts more than
the bound and finds whether the other subscriptions with the new items are within it. An update of a subscription
at its own revision is refused exactly when the others with its new items are not. A refused update changes
nothing, and a refused creation removes the subscriptions whose deadline has passed and nothing else. -/
theorem sampling_budget [DecidableEq V] {capacity : ℕ} {attachmentTtl : ℤ} {store : HalValueTelemetry V}
    {actions : List (HalTelemetryAction V)}
    (hrun : Run step { capacity, attachmentTtl } actions store) :
    totalRate (store.states.map HalTelemetryEntry.demand) ≤ kMaxSamplesPerSecond.toNat ∧
    (∀ replacing items samplePeriodMs period, subscriptionPeriod samplePeriodMs = some period →
      (store.withinSamplingBudgetLocked replacing items period = true ↔
        totalRate (judged store.states replacing items period) ≤ kMaxSamplesPerSecond.toNat) ∧
      ∀ states order, states.Perm store.states →
        order.Perm ((fastestPeriods states replacing items period).entries.map fun entry =>
          UInt64.ofNat entry.2) →
        (chargeRates 0 order).1 = store.withinSamplingBudgetLocked replacing items period ∧
          ∀ subtracted ∈ (chargeRates 0 order).2, subtracted ≤ kMaxSamplesPerSecond) ∧
    (∀ id expectedRevision items period due,
      ((store.update id expectedRevision items period due).2 = none →
        (store.update id expectedRevision items period due).1 = store) ∧
      ∀ samplePeriodMs entry, subscriptionPeriod samplePeriodMs = some period → store.closed = false →
        store.find id = some entry → entry.state.revision = expectedRevision →
        ((store.update id expectedRevision items period due).2 = none ↔
          kMaxSamplesPerSecond.toNat < totalRate (judged store.states (some id) items period))) ∧
    ∀ items period now deadline due id token,
      (store.create items period now deadline due id token).2 = none →
        (store.create items period now deadline due id token).1.states =
          store.states.filter fun entry => !entry.expired now := by
  have haffordable := affordable_run hrun
  refine ⟨haffordable.within, ?_, ?_, ?_⟩
  · intro replacing items samplePeriodMs period hperiod
    have haccepted := accepted_of_subscriptionPeriod hperiod
    have hwithin : store.withinSamplingBudgetLocked replacing items period = true ↔
        totalRate (judged store.states replacing items period) ≤ 20480 := haffordable.within_iff haccepted
    refine ⟨hwithin, ?_⟩
    intro states order hstates horder
    -- the demands do not depend on the order of the subscriptions
    have hjudged : ∀ demand, demand ∈ judged states replacing items period ↔
        demand ∈ judged store.states replacing items period := fun demand =>
      (((hstates.filter _).map _).append_right _).mem_iff
    obtain ⟨hresult, hsubtracted⟩ := chargeRates_fastest
      (fun demand hdemand => haffordable.judged haccepted demand ((hjudged demand).mp hdemand)) horder
    refine ⟨?_, hsubtracted⟩
    rw [Bool.eq_iff_iff, hresult, hwithin]
    unfold totalRate
    rw [sharedRate_congr samplesPerSecond hjudged]
  · intro id expectedRevision items period due
    refine ⟨update_refused, ?_⟩
    rintro samplePeriodMs entry hperiod hopen hfind rfl
    have hwithin : store.withinSamplingBudgetLocked (some id) items period = true ↔ _ :=
      haffordable.within_iff (accepted_of_subscriptionPeriod hperiod)
    rw [update_eq_none_iff hopen hfind, ← Bool.not_eq_true, hwithin]
    exact not_le
  · intro items period now deadline due id token hrefused
    exact haffordable.create_refused hrefused

/-! A subscription that a session holds and one that nobody has claimed for thirty seconds; then a creation of 1024
other items at the fastest period. -/

def pinItem (name : HalName) : HalTelemetryResolvedItem := ⟨⟨.pin, name⟩, .float⟩

def crowding : List (HalTelemetryAction ℕ) :=
  [.create [pinItem ['x']] 50 0 0 0 ['a'] ['s'], .claim ['s'] 0 0,
    .create [pinItem ['y']] 50 0 0 0 ['b'] ['t']]

def crowded : HalValueTelemetry ℕ := (exec step {} crowding).getD {}

theorem crowded_run : Run step {} crowding crowded := .getD_exec (by decide +kernel)

/-- Item `n` has a name of `n + 1` letters. -/
def wideItem (n : ℕ) : HalTelemetryResolvedItem := pinItem (List.replicate (n + 1) 'w')

def wideItems : List HalTelemetryResolvedItem := (List.range 1024).map wideItem

theorem wideItems_nodup :
    ((⟨.pin, ['x']⟩ : HalTelemetryReference) :: wideItems.map HalTelemetryResolvedItem.item).Nodup := by
  unfold wideItems
  rw [List.map_map, List.nodup_cons]
  constructor
  · intro hmem
    obtain ⟨n, -, hn⟩ := List.mem_map.mp hmem
    have hfirst := congrArg (fun item : HalTelemetryReference => item.name.head?) hn
    simp [wideItem, pinItem, List.replicate_succ] at hfirst
  · refine List.Nodup.map ?_ List.nodup_range
    intro n n' h
    have hlength := congrArg (fun item : HalTelemetryReference => item.name.length) h
    simpa [wideItem, pinItem] using hlength

/-- With the one item that a session still has, 1025 items at 20 samples per second. -/
theorem wideItems_rate :
    totalRate (judged (crowded.expireLocked 31000000000).states none wideItems 50) = 20500 := by
  have hstates : (crowded.expireLocked 31000000000).states.map HalTelemetryEntry.demand =
      [([⟨.pin, ['x']⟩], 50)] := by decide +kernel
  have hitems : demanded [([(⟨.pin, ['x']⟩ : HalTelemetryReference)], 50),
      (wideItems.map HalTelemetryResolvedItem.item, 50)] =
        (⟨.pin, ['x']⟩ :: wideItems.map HalTelemetryResolvedItem.item).toFinset := by
    unfold demanded
    rw [List.flatMap_cons, List.flatMap_singleton, List.singleton_append]
  have hconst : sharedRate samplesPerSecond [([(⟨.pin, ['x']⟩ : HalTelemetryReference)], 50),
      (wideItems.map HalTelemetryResolvedItem.item, 50)] = _ * samplesPerSecond 50 :=
    sharedRate_const samplesPerSecond (by simp)
  unfold totalRate judged
  rw [othersOf_none, hstates, List.singleton_append, hconst, hitems,
    List.toFinset_card_of_nodup wideItems_nodup, List.length_cons, List.length_map]
  unfold wideItems
  rw [List.length_map, List.length_range]
  decide

theorem wideItems_refused :
    (crowded.create wideItems 50 31000000000 31000000000 31000000000 ['c'] ['u']).2 = none := by
  have hexpired := (affordable_run crowded_run).shrinks (shrinks_expire crowded 31000000000)
  have hbudget : (crowded.expireLocked 31000000000).withinSamplingBudgetLocked none wideItems 50 = false := by
    rw [Bool.eq_false_iff]
    intro hwithin
    have hle := (hexpired.within_iff (by decide : 50 ≤ 50 ∧ 50 ≤ 60000)).mp hwithin
    rw [wideItems_rate] at hle
    exact absurd hle (by decide)
  unfold HalValueTelemetry.create
  dsimp only
  rw [if_neg (by decide +kernel), if_neg (by decide +kernel), if_pos hbudget]

/-- The refused creation has removed the subscription that nobody claimed. -/
theorem sampling_budget_crowded :
    totalRate (crowded.states.map HalTelemetryEntry.demand) ≤ kMaxSamplesPerSecond.toNat ∧
      (crowded.create wideItems 50 31000000000 31000000000 31000000000 ['c'] ['u']).1.states =
        crowded.states.filter (fun entry => !entry.expired 31000000000) ∧
      (crowded.states.filter fun entry => !entry.expired 31000000000).length = 1 := by
  have hbudget := sampling_budget crowded_run
  exact ⟨hbudget.1, hbudget.2.2.2 _ _ _ _ _ _ _ wideItems_refused, by decide +kernel⟩

/-- A creation refused by the budget takes away a subscription that could still be described and updated. -/
theorem refused_create_expires :
    Run step {} crowding crowded ∧ subscriptionPeriod 50 = some 50 ∧ wideItems.length = 1024 ∧
      (crowded.create wideItems 50 31000000000 31000000000 31000000000 ['c'] ['u']).2 = none ∧
      (crowded.descriptor ['b']).isSome = true ∧
      ((crowded.create wideItems 50 31000000000 31000000000 31000000000 ['c'] ['u']).1.descriptor
        ['b']).isSome = false := by
  have hstates := (affordable_run crowded_run).create_refused wideItems_refused
  refine ⟨crowded_run, rfl, ?_, wideItems_refused, by decide +kernel, ?_⟩
  · unfold wideItems
    rw [List.length_map, List.length_range]
  · unfold descriptor find
    rw [hstates]
    decide +kernel

end HalValueTelemetry

end LinuxcncCtrl
