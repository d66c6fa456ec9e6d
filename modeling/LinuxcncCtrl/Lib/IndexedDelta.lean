import Mathlib

/-! Positional deltas between two lists. `indexedDiff` names every position at which two lists
differ, with the new value or with none; `indexedApply` plays such a delta back. All indices name
positions of the list it is applied to, so holes are closed only after the last item. -/

namespace LinuxcncCtrl.Lib

universe u

/-- One changed position; a missing value means the position is gone. -/
structure Indexed (α : Type u) where
  index : ℕ
  value : Option α
  deriving DecidableEq, Repr

variable {α : Type u}

/-- The item of position `i`, if that position changed. -/
def changedAt [DecidableEq α] (previous current : List α) (i : ℕ) : Option (Indexed α) :=
  if previous.length ≤ i ∨ current.length ≤ i ∨ previous[i]? ≠ current[i]? then
    some ⟨i, current[i]?⟩
  else none

def indexedDiff [DecidableEq α] (previous current : List α) : List (Indexed α) :=
  (List.range (max previous.length current.length)).filterMap (changedAt previous current)

def putSlot (slots : List (Option α)) (item : Indexed α) : List (Option α) :=
  if item.index < slots.length then slots.set item.index item.value
  else if item.value.isSome then slots ++ [item.value]
  else slots

def indexedApply (items : List (Indexed α)) (previous : List α) : List α :=
  (items.foldl putSlot (previous.map some)).reduceOption

/-- The slots after the first `k` positions have been processed. -/
def slotsAfter (previous current : List α) (k : ℕ) : List (Option α) :=
  (current.take k).map some ++ List.replicate (min k previous.length - current.length) none ++
    (previous.drop k).map some

theorem slotsAfter_zero (previous current : List α) :
    slotsAfter previous current 0 = previous.map some := by
  simp [slotsAfter]

theorem reduceOption_map_some (l : List α) : (l.map some).reduceOption = l := by
  induction l with
  | nil => rfl
  | cons a l ih => rw [List.map_cons, List.reduceOption_cons_of_some, ih]

theorem reduceOption_slotsAfter (previous current : List α) :
    (slotsAfter previous current (max previous.length current.length)).reduceOption = current := by
  have hp : previous.drop (max previous.length current.length) = [] :=
    List.drop_eq_nil_of_le (le_max_left _ _)
  have hc : current.take (max previous.length current.length) = current :=
    List.take_of_length_le (le_max_right _ _)
  rw [slotsAfter, hp, hc]
  simp [List.reduceOption_append, List.reduceOption_replicate_none, reduceOption_map_some]

variable {k : ℕ} {previous current : List α}

/-- Below the end of the new list, the processed part has no holes yet. -/
theorem slotsAfter_kept (h : k < current.length) :
    slotsAfter previous current k = (current.take k).map some ++ (previous.drop k).map some := by
  have h0 : min k previous.length - current.length = 0 := by omega
  simp [slotsAfter, h0]

theorem slotsAfter_succ_kept (h : k < current.length) : slotsAfter previous current (k + 1) =
      (current.take k).map some ++ some current[k] :: (previous.drop (k + 1)).map some := by
  have h0 : min (k + 1) previous.length - current.length = 0 := by omega
  rw [slotsAfter, h0, List.take_succ_eq_append_getElem h]
  simp only [List.map_append, List.map_cons, List.map_nil, List.replicate_zero, List.append_nil,
    List.append_assoc, List.singleton_append]

/-- Past the end of the new list, each further position of the old one becomes a hole. -/
theorem slotsAfter_removed (hc : current.length ≤ k)
    (hp : k ≤ previous.length) : slotsAfter previous current k =
      current.map some ++ List.replicate (k - current.length) none ++
        (previous.drop k).map some := by
  rw [slotsAfter, Nat.min_eq_left hp, List.take_of_length_le hc]

theorem putSlot_middle (done rest : List (Option α)) (x v : Option α)
    (hk : done.length = k) : putSlot (done ++ x :: rest) ⟨k, v⟩ = done ++ v :: rest := by
  subst hk
  simp [putSlot]

theorem putSlot_end (done : List (Option α)) (v : α) (hk : done.length = k) :
    putSlot done ⟨k, some v⟩ = done ++ [some v] := by
  subst hk
  simp [putSlot]

section

variable (previous current : List α)

/-- One step of the diff takes the slots of position `k` to those of position `k + 1`. -/
theorem foldl_putSlot_step [DecidableEq α] (hk : k < max previous.length current.length) :
    List.foldl putSlot (slotsAfter previous current k)
      ([k].filterMap (changedAt previous current)) = slotsAfter previous current (k + 1) := by
  by_cases hc : k < current.length
  · have hlen : ((current.take k).map some).length = k := by simp [hc.le]
    rw [slotsAfter_kept hc, slotsAfter_succ_kept hc]
    by_cases hp : k < previous.length
    · rw [List.drop_eq_getElem_cons hp, List.map_cons]
      by_cases he : previous[k] = current[k]
      · simp [changedAt, hc, hp, he]
      · have hitem : changedAt previous current k = some ⟨k, some current[k]⟩ := by
          simp [changedAt, hc, hp, he]
        simp only [List.filterMap_cons, hitem, List.filterMap_nil, List.foldl_cons, List.foldl_nil]
        exact putSlot_middle _ _ _ _ hlen
    · have hd : previous.drop k = [] := List.drop_eq_nil_of_le (by omega)
      have hd' : previous.drop (k + 1) = [] := List.drop_eq_nil_of_le (by omega)
      have hitem : changedAt previous current k = some ⟨k, some current[k]⟩ := by
        simp [changedAt, hc, hp]
      simp only [List.filterMap_cons, hitem, List.filterMap_nil, List.foldl_cons, List.foldl_nil,
        hd, hd', List.map_nil, List.append_nil]
      exact putSlot_end _ _ hlen
  · have hp : k < previous.length := by omega
    have hitem : changedAt previous current k = some ⟨k, none⟩ := by
      simp [changedAt, hp, Nat.le_of_not_lt hc]
    have hs : k + 1 - current.length = (k - current.length) + 1 := by omega
    rw [slotsAfter_removed (by omega) hp.le, slotsAfter_removed (by omega) hp,
      List.drop_eq_getElem_cons hp, List.map_cons, hs, List.replicate_succ']
    simp only [List.filterMap_cons, hitem, List.filterMap_nil, List.foldl_cons, List.foldl_nil]
    rw [putSlot_middle _ _ _ _ (by simp; omega)]
    simp only [List.append_assoc, List.singleton_append]

theorem foldl_putSlot [DecidableEq α] (k : ℕ) (hk : k ≤ max previous.length current.length) :
    List.foldl putSlot (previous.map some)
      ((List.range k).filterMap (changedAt previous current)) = slotsAfter previous current k := by
  induction k with
  | zero => simp [slotsAfter_zero]
  | succ k ih =>
    rw [List.range_succ, List.filterMap_append, List.foldl_append, ih (by omega),
      foldl_putSlot_step previous current hk]

/-- Playing a diff back on the old list gives the new one. -/
theorem indexedApply_indexedDiff [DecidableEq α] :
    indexedApply (indexedDiff previous current) previous = current := by
  rw [indexedApply, indexedDiff, foldl_putSlot previous current _ le_rfl, reduceOption_slotsAfter]

theorem indexedDiff_eq_nil_iff [DecidableEq α] : indexedDiff previous current = [] ↔ previous = current := by
  constructor
  · intro h
    have := indexedApply_indexedDiff previous current
    rw [h] at this
    simpa [indexedApply, reduceOption_map_some] using this
  · rintro rfl
    simp [indexedDiff, changedAt, List.filterMap_eq_nil_iff]

end

end LinuxcncCtrl.Lib
