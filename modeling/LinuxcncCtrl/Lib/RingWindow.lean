import Mathlib

/-! Records of several cells in a ring of cells. A window is a run of records that starts at some cell
and goes round; a record is written at its end, and its first record is given up by moving the
start. -/

namespace LinuxcncCtrl.Lib

variable {δ : Type*} {cells : ℕ → δ} {modulus width start : ℕ} {records : List (ℕ → δ)}

/-- Write the cells of one record, each at its own place in the ring. -/
def writeRecord (cells : ℕ → δ) (modulus width first : ℕ) (record : ℕ → δ) : ℕ → δ := fun cell =>
  match (List.range width).find? fun offset => (first + offset) % modulus == cell with
  | some offset => record offset
  | none => cells cell

/-- The records that the ring holds from `start` on. -/
def Window (cells : ℕ → δ) (modulus width start : ℕ) (records : List (ℕ → δ)) : Prop :=
  ∀ (index : ℕ) (record : ℕ → δ), records[index]? = some record → ∀ offset < width,
    cells ((start + width * index + offset) % modulus) = record offset

variable {first : ℕ}

theorem mod_injOn {a b : ℕ} (ha : a < modulus) (hb : b < modulus)
    (h : (first + a) % modulus = (first + b) % modulus) : a = b :=
  (Nat.ModEq.add_left_cancel' first h).eq_of_lt_of_lt ha hb

theorem writeRecord_self {offset : ℕ} (hoffset : offset < width) (hwidth : width ≤ modulus)
    (record : ℕ → δ) :
    writeRecord cells modulus width first record ((first + offset) % modulus) = record offset := by
  have hfind : (List.range width).find?
      (fun other => (first + other) % modulus == (first + offset) % modulus) = some offset := by
    rw [List.find?_range_eq_some]
    refine ⟨beq_self_eq_true _, List.mem_range.mpr hoffset, fun other hother => ?_⟩
    rw [Bool.not_eq_true', beq_eq_false_iff_ne]
    intro hsame
    have heq := mod_injOn (by omega) (by omega) hsame
    omega
  unfold writeRecord
  rw [hfind]

theorem writeRecord_other {cell : ℕ}
    (hcell : ∀ offset < width, (first + offset) % modulus ≠ cell) (record : ℕ → δ) :
    writeRecord cells modulus width first record cell = cells cell := by
  have hfind : (List.range width).find? (fun other => (first + other) % modulus == cell) = none := by
    rw [List.find?_range_eq_none]
    intro offset hoffset
    rw [Bool.not_eq_true', beq_eq_false_iff_ne]
    exact hcell offset hoffset
  unfold writeRecord
  rw [hfind]

theorem Window.nil : Window cells modulus width start [] := by
  intro index record hrecord
  cases hrecord

/-- A record written behind the window extends it, while the ring has room. -/
theorem Window.push (h : Window cells modulus width start records)
    (hroom : width * (records.length + 1) ≤ modulus) (record : ℕ → δ) :
    Window (writeRecord cells modulus width ((start + width * records.length) % modulus) record)
      modulus width start (records ++ [record]) := by
  have hplace : ∀ offset, ((start + width * records.length) % modulus + offset) % modulus =
      (start + (width * records.length + offset)) % modulus := by
    intro offset
    rw [Nat.mod_add_mod, Nat.add_assoc]
  rw [Nat.mul_add, Nat.mul_one] at hroom
  intro index found hfound offset hoffset
  rw [List.getElem?_append] at hfound
  split_ifs at hfound with hindex
  · rw [writeRecord_other]
    · exact h index found hfound offset hoffset
    · intro other hother hsame
      rw [hplace, Nat.add_assoc start] at hsame
      have hbehind : width * (index + 1) ≤ width * records.length := Nat.mul_le_mul_left width hindex
      rw [Nat.mul_add, Nat.mul_one] at hbehind
      have heq := mod_injOn (by omega) (by omega) hsame
      omega
  · have hlast : index = records.length := by
      have hlt := (List.getElem?_eq_some_iff.mp hfound).1
      rw [List.length_singleton] at hlt
      omega
    subst hlast
    rw [Nat.sub_self, List.getElem?_cons_zero] at hfound
    cases hfound
    rw [Nat.add_assoc, ← hplace]
    exact writeRecord_self hoffset (by omega) record

/-- Moving the start by one record gives up the first one. -/
theorem Window.tail {first : ℕ → δ} (h : Window cells modulus width start (first :: records)) :
    Window cells modulus width ((start + width) % modulus) records := by
  intro index record hrecord offset hoffset
  have hnext := h (index + 1) record hrecord offset hoffset
  rw [Nat.add_assoc, Nat.mod_add_mod]
  rw [Nat.mul_add, Nat.mul_one] at hnext
  rw [← hnext]
  congr 2
  omega

/-- The last `count` entries of a list. -/
def newest {α : Type*} (count : ℕ) (list : List α) : List α := list.drop (list.length - count)

variable {α : Type*} {count : ℕ} {list : List α} {kept : ℕ}

theorem length_newest (h : count ≤ list.length) : (newest count list).length = count := by
  unfold newest
  rw [List.length_drop]
  omega

/-- Of a list that keeps enough of its end, the newest entries after an append. -/
theorem newest_append_newest (list added : List α)
    (hcount : count ≤ kept + added.length) (hkept : kept ≤ list.length) :
    newest count (newest kept list ++ added) = newest count (list ++ added) := by
  have hlength := length_newest hkept
  unfold newest at hlength ⊢
  have hdrop : list.drop (list.length - kept) ++ added = (list ++ added).drop (list.length - kept) := by
    rw [List.drop_append_of_le_length (Nat.sub_le _ _)]
  rw [hdrop, List.drop_drop, List.length_drop, List.length_append]
  congr 1
  omega

theorem newest_append_singleton (list : List α) (added : α) :
    newest (count + 1) (list ++ [added]) = newest count list ++ [added] := by
  unfold newest
  rw [List.length_append, List.length_singleton, Nat.add_sub_add_right,
    List.drop_append_of_le_length (Nat.sub_le _ _)]

theorem newest_eq_cons (h : count < list.length) :
    ∃ first, newest (count + 1) list = first :: newest count list := by
  unfold newest
  refine ⟨list.get ⟨list.length - (count + 1), by omega⟩, ?_⟩
  rw [List.drop_eq_getElem_cons (by omega)]
  congr 2
  omega

theorem getElem?_newest {index : ℕ} (list : List α) (hcount : count ≤ kept) (hkept : kept ≤ list.length) :
    (newest count list)[index]? = (newest kept list)[kept - count + index]? := by
  unfold newest
  rw [List.getElem?_drop, List.getElem?_drop]
  congr 1
  omega

theorem newest_map {β : Type*} (f : α → β) (count : ℕ) (list : List α) :
    newest count (list.map f) = (newest count list).map f := by
  unfold newest
  rw [List.length_map, List.map_drop]

end LinuxcncCtrl.Lib
