import Mathlib

/-! Maps that are sent as lists of keyed entries. Two lists that follow each other can be merged into
one: an entry of the second replaces the first entry of the same key, or is added. If no key is twice
in the list that is merged into, applying the merged list is applying the two lists in order. -/

namespace LinuxcncCtrl.Lib

variable {α κ β : Type} [DecidableEq κ] {key : α → κ} {value : α → β}

def upsert (key : α → κ) : List α → α → List α
  | [], incoming => [incoming]
  | entry :: entries, incoming =>
    if key entry = key incoming then incoming :: entries else entry :: upsert key entries incoming

/-- The entries in order, each replacing what the map had for its key. -/
def putAll (key : α → κ) (value : α → β) (entries : List α) (map : κ → Option β) : κ → Option β :=
  entries.foldl (fun map entry => Function.update map (key entry) (some (value entry))) map

def Distinct (key : α → κ) (entries : List α) : Prop := (entries.map key).Nodup

@[simp] theorem putAll_cons (entry : α) (entries : List α) (map : κ → Option β) :
    putAll key value (entry :: entries) map =
      putAll key value entries (Function.update map (key entry) (some (value entry))) := rfl

variable {entries : List α} {k : κ} {entry : α}

theorem putAll_other (h : k ∉ entries.map key)
    (map : κ → Option β) : putAll key value entries map k = map k := by
  induction entries generalizing map with
  | nil => rfl
  | cons entry entries ih =>
    obtain ⟨hentry, hentries⟩ := not_or.mp (fun hor => h (List.mem_cons.mpr hor))
    rw [putAll_cons, ih hentries, Function.update_of_ne hentry]

theorem putAll_mem (hdistinct : Distinct key entries) (hentry : entry ∈ entries) (map : κ → Option β) :
    putAll key value entries map (key entry) = some (value entry) := by
  induction entries generalizing map with
  | nil => cases hentry
  | cons first entries ih =>
    obtain ⟨hfirst, hrest⟩ := List.nodup_cons.mp hdistinct
    rw [putAll_cons]
    rcases List.mem_cons.mp hentry with rfl | hmem
    · rw [putAll_other hfirst, Function.update_self]
    · exact ih hrest hmem _

theorem putAll_agree {b : β} {map : κ → Option β} (h : ∀ entry ∈ entries, key entry = k → value entry = b)
    (hsome : map k = some b ∨ k ∈ entries.map key) : putAll key value entries map k = some b := by
  induction entries generalizing map with
  | nil => exact hsome.resolve_right (List.not_mem_nil)
  | cons first entries ih =>
    obtain ⟨hfirst, hrest⟩ := List.forall_mem_cons.mp h
    rw [putAll_cons]
    apply ih hrest
    by_cases hkey : key first = k
    · left
      rw [← hkey, Function.update_self, hfirst hkey]
    · rw [Function.update_of_ne (Ne.symm hkey)]
      exact hsome.imp_right fun hmem => (List.mem_cons.mp hmem).resolve_left (Ne.symm hkey)

/-- An entry put before others that do not have its key may as well be put after them. -/
theorem putAll_update (h : key entry ∉ entries.map key) (map : κ → Option β) :
    putAll key value entries (Function.update map (key entry) (some (value entry))) =
      Function.update (putAll key value entries map) (key entry) (some (value entry)) := by
  induction entries generalizing map with
  | nil => rfl
  | cons first entries ih =>
    obtain ⟨hfirst, hrest⟩ := not_or.mp (fun hor => h (List.mem_cons.mpr hor))
    rw [putAll_cons, putAll_cons, ← ih hrest, Function.update_comm hfirst]

theorem mem_keys_upsert {incoming : α}
    (h : k ∈ (upsert key entries incoming).map key) : k = key incoming ∨ k ∈ entries.map key := by
  induction entries with
  | nil => exact .inl (List.mem_singleton.mp h)
  | cons first entries ih =>
    unfold upsert at h
    split_ifs at h with hkey
    · rcases List.mem_cons.mp h with heq | hmem
      · exact .inl heq
      · exact .inr (List.mem_cons_of_mem _ hmem)
    · rcases List.mem_cons.mp h with heq | hmem
      · exact .inr (List.mem_cons.mpr (.inl heq))
      · exact (ih hmem).imp_right (List.mem_cons_of_mem _)

theorem Distinct.upsert (h : Distinct key entries) (incoming : α) :
    Distinct key (upsert key entries incoming) := by
  induction entries with
  | nil => exact List.nodup_singleton _
  | cons first entries ih =>
    obtain ⟨hfirst, hrest⟩ := List.nodup_cons.mp h
    unfold Lib.upsert
    split_ifs with hkey
    · exact List.nodup_cons.mpr ⟨hkey ▸ hfirst, hrest⟩
    · refine List.nodup_cons.mpr ⟨fun hmem => ?_, ih hrest⟩
      rcases mem_keys_upsert hmem with heq | hold
      · exact hkey heq
      · exact hfirst hold

theorem putAll_upsert (h : Distinct key entries) (incoming : α) (map : κ → Option β) :
    putAll key value (upsert key entries incoming) map =
      Function.update (putAll key value entries map) (key incoming) (some (value incoming)) := by
  induction entries generalizing map with
  | nil => rfl
  | cons first entries ih =>
    obtain ⟨hfirst, hrest⟩ := List.nodup_cons.mp h
    unfold upsert
    split_ifs with hkey
    · -- the replaced entry was the only one of its key
      rw [putAll_cons, putAll_cons, putAll_update hfirst, putAll_update (hkey ▸ hfirst), hkey,
        Function.update_idem]
    · rw [putAll_cons, putAll_cons, ih hrest]

/-- Merge the entries of one list into another. -/
def mergeInto (key : α → κ) (source target : List α) : List α :=
  source.foldl (upsert key) target

variable {target : List α}

theorem Distinct.mergeInto (h : Distinct key target) (source : List α) :
    Distinct key (mergeInto key source target) := by
  induction source generalizing target with
  | nil => exact h
  | cons incoming source ih => exact ih (h.upsert incoming)

theorem putAll_mergeInto (h : Distinct key target) (source : List α) (map : κ → Option β) :
    putAll key value (mergeInto key source target) map =
      putAll key value source (putAll key value target map) := by
  induction source generalizing target with
  | nil => rfl
  | cons incoming source ih =>
    rw [putAll_cons, ← putAll_upsert h]
    exact ih (h.upsert incoming)

section Items

variable {ι : Type} {keyOf : ι → κ} {entryOf : ι → Option α} {items : List ι}

omit [DecidableEq κ] in
/-- At most one entry for each item, under the item's key. -/
theorem Distinct.filterMap (h : Distinct keyOf items)
    (hkey : ∀ item entry, entryOf item = some entry → key entry = keyOf item) :
    Distinct key (items.filterMap entryOf) := by
  have hsublist : ((items.filterMap entryOf).map key).Sublist (items.map keyOf) := by
    induction items with
    | nil => exact List.Sublist.refl _
    | cons item items ih =>
      have hrest := ih (List.nodup_cons.mp h).2
      cases hentry : entryOf item with
      | none =>
        rw [List.filterMap_cons_none hentry]
        exact hrest.cons _
      | some entry =>
        rw [List.filterMap_cons_some hentry, List.map_cons, List.map_cons, hkey item entry hentry]
        exact hrest.cons_cons _
  exact hsublist.nodup h

/-- An item has the value of its entry, or keeps the value it had. -/
theorem putAll_filterMap (h : Distinct keyOf items)
    (hkey : ∀ item entry, entryOf item = some entry → key entry = keyOf item) {item : ι}
    (hitem : item ∈ items) (map : κ → Option β) :
    putAll key value (items.filterMap entryOf) map (keyOf item) =
      ((entryOf item).map value).or (map (keyOf item)) := by
  cases hentry : entryOf item with
  | some entry =>
    have hmem := List.mem_filterMap.mpr ⟨item, hitem, hentry⟩
    rw [← hkey item entry hentry, putAll_mem (h.filterMap hkey) hmem]
    rfl
  | none =>
    refine putAll_other (fun hmem => ?_) map
    obtain ⟨entry, hentries, hsame⟩ := List.mem_map.mp hmem
    obtain ⟨other, hother, hmade⟩ := List.mem_filterMap.mp hentries
    have heq := List.inj_on_of_nodup_map h hother hitem ((hkey other entry hmade).symm.trans hsame)
    rw [heq, hentry] at hmade
    cases hmade

end Items

end LinuxcncCtrl.Lib
