import Mathlib

/-! A queue whose entries carry consecutive numbers. `Consecutive key n l` says that the entries of
`l`, front to back, have the keys `n`, `n + 1`, and so on; a queue that is only appended to at the
back and popped at the front stays consecutive, and its entries are told apart by their keys. -/

namespace LinuxcncCtrl.Lib

universe u

variable {α : Type u} {key : α → ℕ} {n : ℕ} {l : List α} {a b : α}

/-- The keys of `l` are `n`, `n + 1`, … in order. -/
def Consecutive (key : α → ℕ) (n : ℕ) (l : List α) : Prop :=
  l.map key = List.range' n l.length

namespace Consecutive

theorem nil : Consecutive key n [] := rfl

theorem cons_iff : Consecutive key n (a :: l) ↔ key a = n ∧ Consecutive key (n + 1) l := by
  unfold Consecutive
  rw [List.map_cons, List.length_cons, List.range'_succ, List.cons.injEq]

section

variable (h : Consecutive key n l)

include h

theorem append (ha : key a = n + l.length) : Consecutive key n (l ++ [a]) := by
  unfold Consecutive at h ⊢
  rw [List.map_append, h, List.length_append, List.map_singleton, List.length_singleton,
    List.range'_concat, one_mul, ha]

theorem getLast? (ha : l.getLast? = some a) : key a + 1 = n + l.length := by
  obtain ⟨rest, rfl⟩ := List.getLast?_eq_some_iff.mp ha
  unfold Consecutive at h
  rw [List.length_append, List.length_singleton, List.range'_concat, List.map_append] at h
  have hlast := List.singleton_inj.mp (List.append_inj' h rfl).2
  rw [List.length_append, List.length_singleton, hlast]
  omega

theorem map {f : α → α} (hf : ∀ a, key (f a) = key a) : Consecutive key n (l.map f) := by
  unfold Consecutive at h ⊢
  rw [List.map_map, List.length_map, ← h]
  exact List.map_congr_left fun a _ => hf a

theorem mem_bounds (ha : a ∈ l) : n ≤ key a ∧ key a < n + l.length := by
  have hmem : key a ∈ List.range' n l.length := h ▸ List.mem_map_of_mem ha
  simpa using hmem

theorem exists_mem {k : ℕ} (hle : n ≤ k) (hlt : k < n + l.length) : ∃ a ∈ l, key a = k := by
  have hmem : k ∈ l.map key := h ▸ List.mem_range'_1.mpr ⟨hle, hlt⟩
  exact List.mem_map.mp hmem

theorem eq_of_key_eq (ha : a ∈ l) (hb : b ∈ l) (hkey : key a = key b) : a = b := by
  have hnodup : (l.map key).Nodup := h ▸ List.nodup_range'
  exact List.inj_on_of_nodup_map hnodup ha hb hkey

/-- The search from the front finds the entry with the smallest key. -/
theorem find?_eq_some {p : α → Bool} (ha : a ∈ l) (hp : p a = true)
    (hmin : ∀ b ∈ l, p b = true → key a ≤ key b) : l.find? p = some a := by
  induction l generalizing n with
  | nil => cases ha
  | cons b l ih =>
    obtain ⟨hb, htail⟩ := cons_iff.mp h
    cases hpb : p b with
    | true =>
      have hle := hmin b List.mem_cons_self hpb
      have hge := (h.mem_bounds ha).1
      rw [List.find?_cons_of_pos hpb, h.eq_of_key_eq List.mem_cons_self ha (by omega)]
    | false =>
      have hne : a ≠ b := fun heq => by rw [heq, hpb] at hp; cases hp
      rw [List.find?_cons_of_neg (by simp [hpb])]
      exact ih htail ((List.mem_cons.mp ha).resolve_left hne) fun c hc => hmin c (List.mem_cons_of_mem b hc)

end

end Consecutive

end LinuxcncCtrl.Lib
