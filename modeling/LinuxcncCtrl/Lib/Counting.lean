import Mathlib

/-! Counting what is kept in a list of places: a thing that is in exactly one place is counted once over
all of them, and replacing one place changes the count by what it held and what it holds. -/

namespace LinuxcncCtrl.Lib

section CountP

variable {α : Type} {p : α → Bool} {l : List α} {a : α} {i : ℕ}

theorem countP_cons_toNat : (a :: l).countP p = l.countP p + (p a).toNat := by
  cases h : p a <;> simp [h]

theorem countP_concat_toNat : (l ++ [a]).countP p = l.countP p + (p a).toNat := by
  cases h : p a <;> simp [h]

theorem countP_eraseIdx (h : l[i]? = some a) : (l.eraseIdx i).countP p + (p a).toNat = l.countP p := by
  obtain ⟨hi, rfl⟩ := List.getElem?_eq_some_iff.mp h
  rw [← (List.getElem_cons_eraseIdx_perm hi).countP_eq p, countP_cons_toNat]

theorem countP_set (p : α → Bool) (h : l[i]? = some a) (b : α) :
    (l.set i b).countP p + (p a).toNat = l.countP p + (p b).toNat := by
  obtain ⟨hi, rfl⟩ := List.getElem?_eq_some_iff.mp h
  have hset : (l.set i b)[i]? = some b := by simp [hi]
  have hb := countP_eraseIdx (p := p) hset
  have ha := countP_eraseIdx (p := p) h
  rw [List.eraseIdx_set_eq] at hb
  omega

theorem length_eraseIdx_add_one (h : l[i]? = some a) : (l.eraseIdx i).length + 1 = l.length := by
  have hi := (List.getElem?_eq_some_iff.mp h).1
  rw [List.length_eraseIdx_of_lt hi]
  omega

end CountP

/-- A replaced entry gives what the new one holds for what the old one held. -/
theorem filterMap_set_perm {α β : Type} (f : α → Option β) {l : List α} {i : ℕ} {a : α}
    (h : l[i]? = some a) (b : α) :
    ((f a).toList ++ (l.set i b).filterMap f).Perm ((f b).toList ++ l.filterMap f) := by
  obtain ⟨hi, rfl⟩ := List.getElem?_eq_some_iff.mp h
  have hcons : ∀ x : α, (x :: l.eraseIdx i).filterMap f = (f x).toList ++ (l.eraseIdx i).filterMap f := by
    intro x
    cases hx : f x <;> simp [hx]
  have hset := (List.set_perm_cons_eraseIdx hi b).filterMap f
  have hold := (List.getElem_cons_eraseIdx_perm hi).filterMap f
  rw [hcons] at hset hold
  calc ((f l[i]).toList ++ (l.set i b).filterMap f).Perm
        ((f l[i]).toList ++ ((f b).toList ++ (l.eraseIdx i).filterMap f)) := hset.append_left _
    _ |>.Perm ((f b).toList ++ ((f l[i]).toList ++ (l.eraseIdx i).filterMap f)) := by
        rw [← List.append_assoc, ← List.append_assoc]
        exact List.perm_append_comm.append_right _
    _ |>.Perm ((f b).toList ++ l.filterMap f) := hold.append_left _

/-- What a replaced entry takes from a flattened list and what it adds. -/
theorem count_flatMap_set {α : Type} (f : α → List ℕ) {list : List α} {index : ℕ} {before : α}
    (h : list[index]? = some before) (after : α) (id : ℕ) :
    ((list.set index after).flatMap f).count id + (f before).count id =
      (list.flatMap f).count id + (f after).count id := by
  obtain ⟨hlt, rfl⟩ := List.getElem?_eq_some_iff.mp h
  have hafter := ((List.set_perm_cons_eraseIdx hlt after).flatMap_right f).count_eq id
  have hbefore := ((List.getElem_cons_eraseIdx_perm hlt).flatMap_right f).count_eq id
  rw [List.flatMap_cons, List.count_append] at hafter hbefore
  omega

/-- One more number below the bound. -/
theorem count_succ (bound id : ℕ) :
    (if id < bound + 1 then 1 else 0) = (if id < bound then 1 else 0) + [bound].count id := by
  rw [List.count_singleton]
  simp only [beq_iff_eq]
  split_ifs <;> omega

end LinuxcncCtrl.Lib
