import Mathlib

/-! Resources that several users share, each user at a period of its own. A resource is served at the smallest
period that any of its users asks for, so the total rate is not additive in the users; it depends only on the set
of demands, and grows with it if the rate falls when the period grows. -/

namespace LinuxcncCtrl.Lib

variable {κ : Type} {demands demands' : List (List κ × ℕ)} {k : κ} {period : ℕ}

/-- The periods at which `k` is demanded. -/
def periodsOf (demands : List (List κ × ℕ)) (k : κ) : Set ℕ :=
  {period | ∃ demand ∈ demands, k ∈ demand.1 ∧ demand.2 = period}

theorem periodsOf_append (demands demands' : List (List κ × ℕ)) (k : κ) :
    periodsOf (demands ++ demands') k = periodsOf demands k ∪ periodsOf demands' k := by
  ext period
  unfold periodsOf
  simp only [List.mem_append, Set.mem_union, Set.mem_ofPred_eq, or_and_right, exists_or]

theorem periodsOf_mono (h : ∀ demand ∈ demands, demand ∈ demands') (k : κ) :
    periodsOf demands k ⊆ periodsOf demands' k := by
  rintro period ⟨demand, hdemand, hk⟩
  exact ⟨demand, h demand hdemand, hk⟩

variable [DecidableEq κ]

/-- The resources that are demanded at all. -/
def demanded (demands : List (List κ × ℕ)) : Finset κ := (demands.flatMap Prod.fst).toFinset

theorem mem_demanded : k ∈ demanded demands ↔ (periodsOf demands k).Nonempty := by
  unfold demanded periodsOf
  rw [List.mem_toFinset, List.mem_flatMap]
  constructor
  · rintro ⟨demand, hdemand, hk⟩
    exact ⟨demand.2, demand, hdemand, hk, rfl⟩
  · rintro ⟨-, demand, hdemand, hk, -⟩
    exact ⟨demand, hdemand, hk⟩

/-- The total of the rates at which the resources are served. -/
noncomputable def sharedRate (rate : ℕ → ℕ) (demands : List (List κ × ℕ)) : ℕ :=
  ∑ k ∈ demanded demands, rate (sInf (periodsOf demands k))

/-- Fewer demands cost no more. -/
theorem sharedRate_mono {rate : ℕ → ℕ} (hrate : ∀ p q, 0 < p → p ≤ q → rate q ≤ rate p)
    (hpositive : ∀ demand ∈ demands', 0 < demand.2) (h : ∀ demand ∈ demands, demand ∈ demands') :
    sharedRate rate demands ≤ sharedRate rate demands' := by
  have hsubset : demanded demands ⊆ demanded demands' := by
    intro k hk
    exact mem_demanded.mpr ((mem_demanded.mp hk).mono (periodsOf_mono h k))
  calc sharedRate rate demands
      ≤ ∑ k ∈ demanded demands, rate (sInf (periodsOf demands' k)) := by
        apply Finset.sum_le_sum
        intro k hk
        have hmem := Nat.sInf_mem (mem_demanded.mp hk)
        obtain ⟨demand, hdemand, -, hperiod⟩ := Nat.sInf_mem (mem_demanded.mp (hsubset hk))
        apply hrate
        · rw [← hperiod]
          exact hpositive demand hdemand
        · exact Nat.sInf_le (periodsOf_mono h k hmem)
    _ ≤ sharedRate rate demands' := Finset.sum_le_sum_of_subset hsubset

theorem sharedRate_congr (rate : ℕ → ℕ) (h : ∀ demand, demand ∈ demands ↔ demand ∈ demands') :
    sharedRate rate demands = sharedRate rate demands' := by
  have hperiods : periodsOf demands = periodsOf demands' := by
    funext k
    exact Set.Subset.antisymm (periodsOf_mono (fun demand => (h demand).mp) k)
      (periodsOf_mono (fun demand => (h demand).mpr) k)
  have hdemanded : demanded demands = demanded demands' := by
    ext k
    rw [mem_demanded, mem_demanded, hperiods]
  unfold sharedRate
  rw [hperiods, hdemanded]

/-- At one period for all, every resource counts once. -/
theorem sharedRate_const (rate : ℕ → ℕ) (h : ∀ demand ∈ demands, demand.2 = period) :
    sharedRate rate demands = (demanded demands).card * rate period := by
  rw [← smul_eq_mul, ← Finset.sum_const]
  apply Finset.sum_congr rfl
  intro k hk
  obtain ⟨demand, hdemand, -, hperiod⟩ := Nat.sInf_mem (mem_demanded.mp hk)
  rw [← hperiod, h demand hdemand]

/-- Names of the resources that do not clash change nothing. -/
theorem sharedRate_map {ι : Type} [DecidableEq ι] {name : ι → κ} (hname : Function.Injective name)
    (rate : ℕ → ℕ) (demands : List (List ι × ℕ)) :
    sharedRate rate (demands.map fun demand => (demand.1.map name, demand.2)) = sharedRate rate demands := by
  have hperiods : ∀ k, periodsOf (demands.map fun demand => (demand.1.map name, demand.2)) (name k) =
      periodsOf demands k := by
    intro k
    ext period
    constructor
    · rintro ⟨renamed, hmapped, hk, hperiod⟩
      obtain ⟨demand, hdemand, rfl⟩ := List.mem_map.mp hmapped
      exact ⟨demand, hdemand, (List.mem_map_of_injective hname).mp hk, hperiod⟩
    · rintro ⟨demand, hdemand, hk, hperiod⟩
      exact ⟨_, List.mem_map_of_mem hdemand, List.mem_map_of_mem hk, hperiod⟩
  have hdemanded : demanded (demands.map fun demand => (demand.1.map name, demand.2)) =
      (demanded demands).image name := by
    ext k
    unfold demanded
    simp only [List.mem_toFinset, List.mem_flatMap, List.mem_map, Finset.mem_image]
    constructor
    · rintro ⟨-, ⟨demand, hdemand, rfl⟩, hk⟩
      obtain ⟨item, hitem, rfl⟩ := List.mem_map.mp hk
      exact ⟨item, ⟨demand, hdemand, hitem⟩, rfl⟩
    · rintro ⟨item, ⟨demand, hdemand, hitem⟩, rfl⟩
      exact ⟨_, ⟨demand, hdemand, rfl⟩, List.mem_map_of_mem hitem⟩
  unfold sharedRate
  rw [hdemanded, Finset.sum_image fun k _ k' _ h => hname h]
  simp only [hperiods]

/-- Note that `k` is demanded at this period. -/
def keepSmallest (period : ℕ) (map : AList fun _ : κ => ℕ) (k : κ) : AList fun _ : κ => ℕ :=
  match map.lookup k with
  | none => map.insert k period
  | some found => if period < found then map.insert k period else map

/-- The map has the smallest of the periods of each resource that has any. -/
def Tracks (map : AList fun _ : κ => ℕ) (periods : κ → Set ℕ) : Prop :=
  ∀ k period, map.lookup k = some period ↔ IsLeast (periods k) period

variable {map : AList fun _ : κ => ℕ} {periods : κ → Set ℕ}

theorem tracks_empty : Tracks (∅ : AList fun _ : κ => ℕ) fun _ => ∅ := by
  intro k period
  simp [IsLeast]

theorem Tracks.none (h : Tracks map periods) (hnone : map.lookup k = none) : periods k = ∅ := by
  apply Set.not_nonempty_iff_eq_empty.mp
  intro hperiods
  have hleast := (h k _).mpr ⟨Nat.sInf_mem hperiods, fun _ hmem => Nat.sInf_le hmem⟩
  rw [hnone] at hleast
  cases hleast

theorem Tracks.keepSmallest (h : Tracks map periods) (period : ℕ) (k : κ) :
    Tracks (keepSmallest period map k) fun other =>
      periods other ∪ {p | other = k ∧ p = period} := by
  intro other p
  by_cases hother : other = k
  · subst hother
    have hset : periods other ∪ {p | other = other ∧ p = period} = insert period (periods other) := by
      ext q
      simp only [true_and, Set.mem_union, Set.mem_ofPred_eq, Set.mem_insert_iff, or_comm]
    dsimp only
    rw [hset]
    unfold Lib.keepSmallest
    cases hlookup : map.lookup other with
    | none =>
      rw [h.none hlookup]
      rw [AList.lookup_insert, insert_empty_eq, Option.some.injEq]
      constructor
      · rintro rfl
        exact isLeast_singleton
      · exact fun hleast => (Set.mem_singleton_iff.mp hleast.1).symm
    | some found =>
      have hleast := (h other found).mp hlookup
      have hmin := hleast.insert period
      dsimp only
      split_ifs with hlt
      · rw [AList.lookup_insert, Option.some.injEq]
        rw [min_eq_left hlt.le] at hmin
        exact ⟨fun heq => heq ▸ hmin, fun hother => hmin.unique hother⟩
      · rw [hlookup, Option.some.injEq]
        rw [min_eq_right (not_lt.mp hlt)] at hmin
        exact ⟨fun heq => heq ▸ hmin, fun hother => hmin.unique hother⟩
  · have hlookup : (Lib.keepSmallest period map k).lookup other = map.lookup other := by
      unfold Lib.keepSmallest
      split
      · exact AList.lookup_insert_ne hother
      · split_ifs
        · exact AList.lookup_insert_ne hother
        · rfl
    have hset : periods other ∪ {p | other = k ∧ p = period} = periods other := by
      simp [hother]
    dsimp only
    rw [hlookup, hset]
    exact h other p

/-- A user's demand, entered resource by resource. -/
theorem Tracks.foldl (h : Tracks map (periodsOf demands)) (items : List κ) (period : ℕ) :
    Tracks (items.foldl (Lib.keepSmallest period) map) (periodsOf (demands ++ [(items, period)])) := by
  have hfold : ∀ (items : List κ) (map : AList fun _ : κ => ℕ) (periods : κ → Set ℕ), Tracks map periods →
      Tracks (items.foldl (Lib.keepSmallest period) map) fun k =>
        periods k ∪ {p | k ∈ items ∧ p = period} := by
    intro items
    induction items with
    | nil =>
      intro map periods h
      simpa using h
    | cons item items ih =>
      intro map periods h
      have hrest := ih _ _ (h.keepSmallest period item)
      have hset : ∀ k, (periods k ∪ {p | k = item ∧ p = period}) ∪ {p | k ∈ items ∧ p = period} =
          periods k ∪ {p | k ∈ item :: items ∧ p = period} := by
        intro k
        ext p
        simp only [Set.mem_union, Set.mem_ofPred_eq, List.mem_cons, or_and_right, or_assoc]
      simp only [hset] at hrest
      exact hrest
  have hset : periodsOf (demands ++ [(items, period)]) = fun k =>
      periodsOf demands k ∪ {p | k ∈ items ∧ p = period} := by
    funext k
    rw [periodsOf_append]
    congr 1
    ext p
    simp [periodsOf, eq_comm]
  rw [hset]
  exact hfold items map _ h

/-- The rates of the periods in the map add up to the total. -/
theorem Tracks.sum_rates (h : Tracks map (periodsOf demands)) (rate : ℕ → ℕ) :
    (map.entries.map fun entry => rate entry.2).sum = sharedRate rate demands := by
  have hkeys : map.keys.toFinset = demanded demands := by
    ext k
    rw [List.mem_toFinset, mem_demanded, AList.mem_keys.symm, ← AList.lookup_isSome,
      Option.isSome_iff_exists]
    constructor
    · rintro ⟨period, hlookup⟩
      exact ⟨period, ((h k period).mp hlookup).1⟩
    · intro hperiods
      exact ⟨_, (h k _).mpr ⟨Nat.sInf_mem hperiods, fun _ hmem => Nat.sInf_le hmem⟩⟩
  unfold sharedRate
  rw [← hkeys, List.sum_toFinset _ map.keys_nodup]
  unfold AList.keys List.keys
  rw [List.map_map]
  congr 1
  apply List.map_congr_left
  intro entry hentry
  have hleast := (h entry.1 entry.2).mp (AList.mem_lookup_iff.mpr hentry)
  rw [Function.comp_apply, hleast.csInf_eq]

end LinuxcncCtrl.Lib
