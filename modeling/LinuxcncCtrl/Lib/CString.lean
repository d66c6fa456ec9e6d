import Mathlib

/-! Searching in strings the way C does: the first occurrence of a word, and the last occurrence of a
character with what is before and behind it. A string is the list of its characters. -/

namespace LinuxcncCtrl.Lib

variable {α : Type} [DecidableEq α]

/-- `strstr`: where a word occurs first. -/
def firstOccurrence (word : List α) : List α → Option ℕ
  | [] => if word = [] then some 0 else none
  | c :: text => if word <+: c :: text then some 0 else (firstOccurrence word text).map (· + 1)

variable {word text before after : List α} {c : α}

theorem firstOccurrence_eq_some {i : ℕ} (hi : word <+: text.drop i)
    (hbefore : ∀ j < i, ¬ word <+: text.drop j) (hle : i ≤ text.length) :
    firstOccurrence word text = some i := by
  induction text generalizing i with
  | nil =>
    obtain rfl := Nat.le_zero.mp hle
    have hword : word = [] := List.prefix_nil.mp hi
    rw [firstOccurrence, if_pos hword]
  | cons c text ih =>
    cases i with
    | zero =>
      rw [firstOccurrence]
      exact if_pos hi
    | succ i =>
      have hnot : ¬ word <+: c :: text := hbefore 0 (Nat.succ_pos i)
      rw [firstOccurrence, if_neg hnot,
        ih hi (fun j hj => hbefore (j + 1) (Nat.succ_lt_succ hj)) (Nat.le_of_succ_le_succ hle)]
      rfl

theorem firstOccurrence_eq_none_iff : firstOccurrence word text = none ↔ ¬ word <:+: text := by
  induction text with
  | nil =>
    rw [firstOccurrence, List.infix_nil]
    split_ifs with hword <;> simp [hword]
  | cons c text ih =>
    rw [firstOccurrence, List.infix_cons_iff, not_or]
    split_ifs with hword
    · simp [hword]
    · rw [Option.map_eq_none_iff, ih]
      simp [hword]

theorem firstOccurrence_spec {i : ℕ} (h : firstOccurrence word text = some i) :
    word <+: text.drop i ∧ ∀ j < i, ¬ word <+: text.drop j := by
  induction text generalizing i with
  | nil =>
    obtain ⟨rfl, ⟨⟩⟩ := Option.ite_none_right_eq_some.mp h
    exact ⟨List.nil_prefix, fun j hj => absurd hj (Nat.not_lt_zero j)⟩
  | cons c text ih =>
    rw [firstOccurrence] at h
    split_ifs at h with hword
    · cases h
      exact ⟨hword, fun j hj => absurd hj (Nat.not_lt_zero j)⟩
    · obtain ⟨i, hi, rfl⟩ := Option.map_eq_some_iff.mp h
      obtain ⟨hat, hbefore⟩ := ih hi
      refine ⟨hat, fun j hj => ?_⟩
      cases j with
      | zero => exact hword
      | succ j => exact hbefore j (Nat.lt_of_succ_lt_succ hj)

omit [DecidableEq α] in
theorem prefix_of_prefix_append_cons (hc : c ∉ word)
    (h : word <+: before ++ c :: after) : word <+: before := by
  rcases Nat.lt_or_ge before.length word.length with hlt | hle
  · have hthrough : before ++ [c] <+: word := by
      apply List.prefix_of_prefix_length_le ⟨after, List.append_assoc before [c] after⟩ h
      rw [List.length_append]
      exact hlt
    exact absurd (hthrough.subset (List.mem_append_right _ List.mem_cons_self)) hc
  · exact List.prefix_of_prefix_length_le h (List.prefix_append _ _) hle

/-- `strrchr`: what is before and what is behind the last occurrence of a character. -/
def splitLast (c : α) : List α → Option (List α × List α)
  | [] => none
  | d :: text =>
    match splitLast c text with
    | some (before, after) => some (d :: before, after)
    | none => if d = c then some ([], text) else none

theorem splitLast_eq_none_iff : splitLast c text = none ↔ c ∉ text := by
  induction text with
  | nil => simp [splitLast]
  | cons d text ih =>
    rw [splitLast, List.mem_cons, not_or, ← ih]
    cases splitLast c text with
    | none => simp [eq_comm]
    | some parts => simp

theorem splitLast_append (h : c ∉ after) :
    splitLast c (before ++ c :: after) = some (before, after) := by
  induction before with
  | nil =>
    rw [List.nil_append, splitLast, splitLast_eq_none_iff.mpr h]
    exact if_pos rfl
  | cons d before ih => rw [List.cons_append, splitLast, ih]

theorem splitLast_spec (h : splitLast c text = some (before, after)) :
    text = before ++ c :: after ∧ c ∉ after := by
  induction text generalizing before with
  | nil => cases h
  | cons d text ih =>
    rw [splitLast] at h
    split at h
    next before' after' hsplit =>
      cases h
      obtain ⟨htext, hafter⟩ := ih hsplit
      exact ⟨congrArg (d :: ·) htext, hafter⟩
    next hnone =>
      obtain ⟨rfl, ⟨⟩⟩ := Option.ite_none_right_eq_some.mp h
      exact ⟨rfl, splitLast_eq_none_iff.mp hnone⟩

section Unique

variable {β : Type} [BEq β]

/-- Append what is not there yet. -/
def appendUnique (list : List β) (a : β) : List β := if list.contains a then list else list ++ [a]

theorem foldl_appendUnique [LawfulBEq β] (entries list : List β) : entries.foldl appendUnique list =
      list ++ (entries.filter fun a => a ∉ list).eraseDups := by
  induction entries generalizing list with
  | nil => simp
  | cons a entries ih =>
    rw [List.foldl_cons, ih, appendUnique]
    simp only [List.contains_iff_mem]
    split_ifs with hmem
    · simp [hmem]
    · rw [List.filter_cons_of_pos (by simpa using hmem), List.eraseDups_cons, List.filter_filter,
        List.append_assoc, List.singleton_append]
      congr 3
      apply List.filter_congr
      intro b _
      by_cases hb : b ∈ list <;> by_cases hba : b = a <;> simp [hb, hba]

end Unique

end LinuxcncCtrl.Lib
