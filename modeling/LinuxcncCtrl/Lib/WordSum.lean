import Mathlib

/-! Sums of 64-bit words. A loop that adds words one by one is exact at every turn when the exact sum fits. -/

namespace LinuxcncCtrl.Lib

variable {α : Type}

/-- The exact sum of the words of a list. -/
def exactSum (word : α → UInt64) (list : List α) : ℕ := (list.map fun a => (word a).toNat).sum

/-- The sum as a loop computes it. -/
def wordSum (word : α → UInt64) (list : List α) : UInt64 := list.foldl (fun total a => total + word a) 0

theorem exactSum_cons (word : α → UInt64) (a : α) (list : List α) :
    exactSum word (a :: list) = (word a).toNat + exactSum word list := List.sum_cons

theorem exactSum_sublist {list sub : List α} (h : sub.Sublist list) (word : α → UInt64) :
    exactSum word sub ≤ exactSum word list :=
  (h.map _).sum_le_sum fun _ _ => Nat.zero_le _

theorem exactSum_take_le (word : α → UInt64) (list : List α) (k : ℕ) :
    exactSum word (list.take k) ≤ exactSum word list :=
  exactSum_sublist (list.take_sublist k) word

theorem toNat_add_of_lt {a b : UInt64} (h : a.toNat + b.toNat < 2 ^ 64) : (a + b).toNat = a.toNat + b.toNat := by
  rw [UInt64.toNat_add, Nat.mod_eq_of_lt h]

theorem toNat_wordSum (word : α → UInt64) (list : List α) (h : exactSum word list < 2 ^ 64) :
    (wordSum word list).toNat = exactSum word list := by
  have hloop : ∀ (rest : List α) (total : UInt64), total.toNat + exactSum word rest < 2 ^ 64 →
      (rest.foldl (fun total a => total + word a) total).toNat = total.toNat + exactSum word rest := by
    intro rest
    induction rest with
    | nil =>
      intro total _
      simp [exactSum]
    | cons a rest ih =>
      intro total hfits
      rw [exactSum_cons] at hfits ⊢
      have hadd : (total + word a).toNat = total.toNat + (word a).toNat := toNat_add_of_lt (by omega)
      rw [List.foldl_cons, ih (total + word a) (by omega), hadd, Nat.add_assoc]
  have hsum := hloop list 0 (by simpa using h)
  simpa [wordSum] using hsum

end LinuxcncCtrl.Lib
