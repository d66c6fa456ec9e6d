import Mathlib

/-! Views of strings, as the lists of what they show, with every access checked: a read or a cut beyond
the end of a view is an error. -/

namespace LinuxcncCtrl.Lib

/-- A position beyond the end of a view of this size. -/
structure OutOfRange where
  position : ℕ
  size : ℕ
  deriving DecidableEq

namespace StringView

variable {α : Type}

/-- `view[index]` -/
def read (view : List α) (index : ℕ) : Except OutOfRange α :=
  match view[index]? with
  | some element => .ok element
  | none => .error ⟨index, view.length⟩

/-- `view.substr(position, count)`; no count is `npos`. -/
def substr (view : List α) (position : ℕ) (count : Option ℕ) : Except OutOfRange (List α) :=
  if position ≤ view.length then
    .ok (match count with
      | some count => (view.drop position).take count
      | none => view.drop position)
  else .error ⟨position, view.length⟩

/-- `view.remove_prefix(count)` -/
def removePrefix (view : List α) (count : ℕ) : Except OutOfRange (List α) :=
  if count ≤ view.length then .ok (view.drop count) else .error ⟨count, view.length⟩

/-- `view.find(element)`; none is `npos`. -/
def find [DecidableEq α] (view : List α) (element : α) : Option ℕ :=
  view.findIdx? fun other => decide (other = element)

variable {view : List α} {position : ℕ}

theorem read_eq {index : ℕ} (h : index < view.length) : read view index = .ok view[index] := by
  unfold read
  rw [List.getElem?_eq_getElem h]

theorem read_append (front : List α) (element : α) (rest : List α) :
    read (front ++ element :: rest) front.length = .ok element := by
  unfold read
  rw [List.getElem?_append_right le_rfl, Nat.sub_self]
  rfl

theorem substr_all (view : List α) : substr view 0 none = .ok view := rfl

theorem substr_front (front rest : List α) : substr (front ++ rest) 0 (some front.length) = .ok front := by
  unfold substr
  rw [if_pos (Nat.zero_le _), List.drop_zero]
  exact congrArg Except.ok List.take_left

theorem substr_ok (h : position ≤ view.length) (count : Option ℕ) :
    ∃ cut, substr view position count = .ok cut := by
  unfold substr
  rw [if_pos h]
  exact ⟨_, rfl⟩

theorem removePrefix_ok {rest : List α} {count : ℕ} (h : removePrefix view count = .ok rest) :
    rest.length + count = view.length := by
  unfold removePrefix at h
  split_ifs at h with hcount
  cases h
  rw [List.length_drop]
  omega

theorem removePrefix_append (front rest : List α) : removePrefix (front ++ rest) front.length = .ok rest := by
  unfold removePrefix
  rw [if_pos (by simp), List.drop_left]

variable [DecidableEq α] {element : α}

theorem find_lt (h : find view element = some position) : position < view.length :=
  (List.findIdx?_eq_some_iff_getElem.mp h).1

theorem find_eq_none (h : element ∉ view) : find view element = none := by
  unfold find
  rw [List.findIdx?_eq_none_iff]
  intro other hother
  exact decide_eq_false fun heq => h (heq ▸ hother)

theorem find_append_cons {front : List α} (h : element ∉ front) (rest : List α) :
    find (front ++ element :: rest) element = some front.length := by
  have hfront : front.findIdx? (fun other => decide (other = element)) = none := find_eq_none h
  unfold find
  rw [List.findIdx?_append, hfront, List.findIdx?_cons, decide_eq_true rfl]
  simp

end StringView

end LinuxcncCtrl.Lib
