import Mathlib

/-! A list of stores into a memory. A cell that no store names keeps its value; a cell that the stores
name with one value only holds that value afterwards. -/

namespace LinuxcncCtrl.Lib

variable {α β : Type*} [DecidableEq α] {memory : α → β} {stores : List (α × β)} {cell : α} {value : β}

/-- The memory after the stores, the oldest first. -/
def storeAll (memory : α → β) (stores : List (α × β)) : α → β :=
  stores.foldl (fun memory store => Function.update memory store.1 store.2) memory

theorem storeAll_cons (memory : α → β) (store : α × β) (stores : List (α × β)) :
    storeAll memory (store :: stores) = storeAll (Function.update memory store.1 store.2) stores := rfl

theorem storeAll_of_notMem (h : cell ∉ stores.map Prod.fst) : storeAll memory stores cell = memory cell := by
  induction stores generalizing memory with
  | nil => rfl
  | cons store stores ih =>
    rw [List.map_cons, List.mem_cons, not_or] at h
    rw [storeAll_cons, ih h.2, Function.update_of_ne h.1]

/-- All stores to a cell agree. -/
theorem storeAll_of_mem (hmem : cell ∈ stores.map Prod.fst)
    (hagree : ∀ store ∈ stores, store.1 = cell → store.2 = value) : storeAll memory stores cell = value := by
  induction stores generalizing memory with
  | nil => cases hmem
  | cons store stores ih =>
    rw [storeAll_cons]
    by_cases hlater : cell ∈ stores.map Prod.fst
    · exact ih hlater fun other hother => hagree other (List.mem_cons_of_mem _ hother)
    · -- the first store is the only one to the cell
      rw [List.map_cons, List.mem_cons] at hmem
      have hcell : store.1 = cell := (hmem.resolve_right hlater).symm
      rw [storeAll_of_notMem hlater, hcell, Function.update_self]
      exact hagree store List.mem_cons_self hcell

end LinuxcncCtrl.Lib
