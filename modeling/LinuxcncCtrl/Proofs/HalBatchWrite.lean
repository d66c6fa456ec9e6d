import LinuxcncCtrl.Spec.HalBatchWrite

/-! A batch write is done as a whole or not at all. Every item is resolved and checked before the first is
written, and with what was checked no single write can fail; the last poll of the stop token is before
the first write. -/

namespace LinuxcncCtrl

open Lib

variable {F : Type}

/-- Nothing else determines the value of the item: it is not an output pin or a linked pin, not a
read-only parameter, and not a signal with a writer. -/
def HalItemRecord.Unowned : HalItemRecord → Prop
  | .pin found => found.direction ≠ .output ∧ found.signal = none
  | .param found => found.direction = .readWrite
  | .signal found => found.writers ≤ 0

theorem HalItemRecord.unowned_of_writable {item : HalItemRecord} (h : item.writable = true) :
    item.Unowned := by
  cases item with
  | pin found =>
    simp only [writable, Bool.not_eq_true', Bool.or_eq_false_iff, decide_eq_false_iff_not,
      Option.isSome_eq_false_iff, Option.isNone_iff_eq_none] at h
    exact h
  | param found =>
    simp only [writable, decide_eq_true_eq] at h
    exact h
  | signal found =>
    simp only [writable, Bool.not_eq_true', decide_eq_false_iff_not, not_lt] at h
    exact h

/-- An item of a request with what it was resolved to and the value to be written. -/
structure HalWriteEntry (F : Type) where
  write : HalItemWrite F
  item : ResolvedItem
  address : ℕ
  value : HalAdapterValue F

namespace HalDirectory

variable (hal : HalDirectory F)

def itemOf (write : HalItemWrite F) : Option ResolvedItem :=
  (HalService.decodeHalReference write.item).bind hal.resolveUnlocked

def addressOf (write : HalItemWrite F) : Option ℕ := (hal.itemOf write).bind ResolvedItem.data

/-- What the checks of the service and of the adapter establish for an item. -/
structure Accepts (entry : HalWriteEntry F) : Prop where
  item : hal.itemOf entry.write = some entry.item
  data : entry.item.data = some entry.address
  value : decodeHalScalar entry.write.value = some entry.value
  type : entry.value.type = entry.item.type
  unowned : entry.item.item.Unowned

variable {hal}

theorem Accepts.addressOf {entry : HalWriteEntry F} (h : hal.Accepts entry) :
    hal.addressOf entry.write = some entry.address := by
  unfold HalDirectory.addressOf
  rw [h.item, Option.bind_some, h.data]

theorem readValue_eq {memory : HalMemory F} {type : HalAdapterType} {address : ℕ} {value : HalAdapterValue F}
    (hstored : memory address = value) (htype : value.type = type) :
    hal.readValue memory type address = value := by
  unfold readValue
  rw [hstored, if_pos htype]

theorem resolveUpdate_some {update : HalAdapterReference × HalAdapterValue F} {item : ResolvedItem}
    (h : hal.resolveUpdate update = some item) :
    hal.resolveUnlocked update.1 = some item ∧ (∃ address, item.data = some address) ∧
      update.2.type = item.type ∧ item.item.Unowned := by
  unfold resolveUpdate at h
  split at h
  next => cases h
  next found hfound =>
    split_ifs at h with hchecks hwritable
    cases h
    obtain ⟨hdata, htype⟩ := not_or.mp hchecks
    exact ⟨hfound, Option.ne_none_iff_exists'.mp hdata, Decidable.of_not_not htype,
      HalItemRecord.unowned_of_writable hwritable⟩

theorem resolveUpdates_ok {stopped : ℕ → Bool} {poll : ℕ}
    {updates : List (HalAdapterReference × HalAdapterValue F)} {items : List ResolvedItem}
    (h : hal.resolveUpdates stopped poll updates = .ok (some items)) :
    List.Forall₂ (fun update item => hal.resolveUpdate update = some item) updates items := by
  induction updates generalizing poll items with
  | nil =>
    cases h
    exact .nil
  | cons update updates ih =>
    unfold resolveUpdates at h
    split_ifs at h
    split at h
    next => cases h
    next item hitem =>
      split at h
      next rest hrest =>
        cases h
        exact .cons hitem (ih hrest)
      next hother => exact absurd h (hother items)

theorem writeMany_cases (hal : HalDirectory F) (stopped : ℕ → Bool) (poll : ℕ) (memory : HalMemory F)
    (updates : List (HalAdapterReference × HalAdapterValue F)) :
    (∃ error, hal.writeMany stopped poll memory updates = (memory, .error error)) ∨
    (updates ≠ [] ∧ hal.writeMany stopped poll memory updates = (memory, .ok (0, []))) ∨
    ∃ items, List.Forall₂ (fun update item => hal.resolveUpdate update = some item) updates items ∧
      hal.writeMany stopped poll memory updates =
        ((hal.writeLoop memory (items.zip (updates.map Prod.snd))).1,
          .ok (hal.writeLoop memory (items.zip (updates.map Prod.snd))).2) := by
  unfold writeMany
  split
  · exact .inl ⟨_, rfl⟩
  · split
    next error _ => exact .inl ⟨error, rfl⟩
    next hnone =>
      refine .inr (.inl ⟨fun hempty => ?_, rfl⟩)
      rw [hempty] at hnone
      cases hnone
    next items hitems =>
      split_ifs
      · exact .inl ⟨_, rfl⟩
      · exact .inr (.inr ⟨items, resolveUpdates_ok hitems, rfl⟩)

/-- With items that were admitted the second loop writes them all. -/
theorem writeLoop_eq (entries : List (HalWriteEntry F)) (memory : HalMemory F)
    (h : ∀ entry ∈ entries, hal.Accepts entry) :
    hal.writeLoop memory (entries.map fun entry => (entry.item, entry.value)) =
      (storeAll memory (entries.map fun entry => (entry.address, entry.value)), entries.length,
        entries.map HalWriteEntry.value) := by
  induction entries generalizing memory with
  | nil => rfl
  | cons entry entries ih =>
    have hentry := h entry List.mem_cons_self
    have hwrite : writeValue memory entry.item.type entry.item.data entry.value =
        some (Function.update memory entry.address entry.value) := by
      rw [hentry.data]
      exact if_pos hentry.type
    have hread : hal.readValue (Function.update memory entry.address entry.value) entry.item.type
        entry.address = entry.value := readValue_eq (Function.update_self ..) hentry.type
    rw [List.map_cons, writeLoop, hwrite]
    dsimp only
    rw [ih _ fun other hother => h other (List.mem_cons_of_mem _ hother), hentry.data, Option.map_some, hread]
    rfl

end HalDirectory

namespace HalService

variable {hal : HalDirectory F} {stopped : ℕ → Bool} {memory : HalMemory F} {writes : List (HalItemWrite F)}
  {poll : ℕ} {unique : List (List Char)} {updates : List (HalAdapterReference × HalAdapterValue F)}

theorem decodeWrites_ok (h : decodeWrites stopped poll unique writes = .ok updates) :
    List.Forall₂ (fun write update => decodeHalReference write.item = some update.1 ∧
      decodeHalScalar write.value = some update.2) writes updates := by
  induction writes generalizing poll unique updates with
  | nil =>
    cases h
    exact .nil
  | cons write writes ih =>
    unfold decodeWrites at h
    split_ifs at h
    split at h
    next reference value hreference hvalue =>
      split_ifs at h
      split at h
      next => cases h
      next rest hrest =>
        cases h
        exact .cons ⟨hreference, hvalue⟩ (ih hrest)
    next => cases h

theorem decodeWrites_error {status : GrpcStatus}
    (h : decodeWrites stopped poll unique writes = .error status) : status.code ≠ .ok := by
  induction writes generalizing poll unique with
  | nil => cases h
  | cons write writes ih =>
    unfold decodeWrites at h
    split_ifs at h
    · cases h
      nofun
    · split at h
      next =>
        split_ifs at h
        · cases h
          nofun
        · split at h
          next status' hstatus =>
            cases h
            exact ih hstatus
          next => cases h
      next =>
        cases h
        nofun

theorem halError_code (error : HalAdapterError) : (halError error).code ≠ .ok := by
  unfold halError
  split_ifs <;> nofun

/-- The items of a request that passes both loops, as one list. -/
theorem exists_entries {items : List ResolvedItem}
    (hdecoded : List.Forall₂ (fun write update => decodeHalReference write.item = some update.1 ∧
      decodeHalScalar write.value = some update.2) writes updates)
    (hadmitted : List.Forall₂ (fun update item => hal.resolveUpdate update = some item) updates items) :
    ∃ entries : List (HalWriteEntry F), entries.map HalWriteEntry.write = writes ∧
      items.zip (updates.map Prod.snd) = entries.map (fun entry => (entry.item, entry.value)) ∧
      ∀ entry ∈ entries, hal.Accepts entry := by
  induction hdecoded generalizing items with
  | nil =>
    cases hadmitted
    exact ⟨[], rfl, rfl, by simp⟩
  | @cons write update writes updates hfirst _ ih =>
    obtain ⟨hreference, hvalue⟩ := hfirst
    cases hadmitted with
    | @cons _ item _ items hadmit hrest =>
      obtain ⟨hresolved, ⟨address, hdata⟩, htype, hunowned⟩ := HalDirectory.resolveUpdate_some hadmit
      obtain ⟨entries, hwrites, hzip, hall⟩ := ih hrest
      have hitem : hal.itemOf write = some item := by
        unfold HalDirectory.itemOf
        rw [hreference, Option.bind_some, hresolved]
      refine ⟨⟨write, item, address, update.2⟩ :: entries, ?_, ?_, ?_⟩
      · rw [List.map_cons, hwrites]
      · rw [List.map_cons, List.zip_cons_cons, hzip, List.map_cons]
      · intro entry hentry
        rcases List.mem_cons.mp hentry with rfl | hentry
        · exact ⟨hitem, hdata, hvalue, htype, hunowned⟩
        · exact hall entry hentry

inductive Outcome (hal : HalDirectory F) (memory : HalMemory F) (writes : List (HalItemWrite F)) :
    HalWriteOutcome F → Prop
  | refused (status : GrpcStatus) : status.code ≠ .ok → Outcome hal memory writes { memory, status }
  | written (entries : List (HalWriteEntry F)) : entries.map HalWriteEntry.write = writes →
      (∀ entry ∈ entries, hal.Accepts entry) →
      Outcome hal memory writes
        { memory := storeAll memory (entries.map fun entry => (entry.address, entry.value))
          status := ⟨.ok, ""⟩
          values := entries.map fun entry =>
            { item := entry.write.item, value := encodeHalScalar entry.value } }

theorem doWrite_outcome (hal : HalDirectory F) (stopped : ℕ → Bool) (memory : HalMemory F)
    (writes : List (HalItemWrite F)) : Outcome hal memory writes (doWrite hal stopped memory writes) := by
  unfold doWrite
  split_ifs
  · exact .refused _ nofun
  · split
    next status hstatus => exact .refused _ (decodeWrites_error hstatus)
    next updates hupdates =>
      rcases HalDirectory.writeMany_cases hal stopped writes.length memory updates with
        ⟨error, hthrown⟩ | ⟨hne, hstopped⟩ | ⟨items, hadmitted, hwritten⟩
      · rw [hthrown]
        exact .refused _ (halError_code error)
      · rw [hstopped]
        dsimp only
        rw [if_pos (List.length_pos_of_ne_nil hne).ne]
        exact .refused _ nofun
      · have hdecoded := decodeWrites_ok hupdates
        obtain ⟨entries, hwrites, hzip, hall⟩ := exists_entries hdecoded hadmitted
        have hlength : entries.length = updates.length := by
          rw [← hdecoded.length_eq, ← hwrites, List.length_map]
        rw [hwritten, hzip, HalDirectory.writeLoop_eq entries memory hall]
        dsimp only
        rw [if_neg (not_not.mpr hlength), ← hwrites, List.zip_map', List.map_map]
        exact .written entries rfl hall

end HalService

/-- A batch write that does not return OK leaves the memory of HAL as it was. One that returns OK answers in
the order of the request, and for each item: nothing else determines its value, the value reported is
the one requested, and so is the value stored if no other item of the request has the same address. No
cell changes that is not the address of an item of the request. -/
theorem HalService.doWrite_atomic (hal : HalDirectory F) (stopped : ℕ → Bool) (memory : HalMemory F)
    (writes : List (HalItemWrite F)) :
    ((doWrite hal stopped memory writes).status.code ≠ .ok →
      (doWrite hal stopped memory writes).memory = memory) ∧
    ((doWrite hal stopped memory writes).status.code = .ok →
      (doWrite hal stopped memory writes).values.map HalItemValue.item = writes.map HalItemWrite.item ∧
      (∀ (index : ℕ) (write : HalItemWrite F), writes[index]? = some write →
        ∃ item address value, hal.itemOf write = some item ∧ item.data = some address ∧
          item.item.Unowned ∧ decodeHalScalar write.value = some value ∧
          ((doWrite hal stopped memory writes).values[index]?).map HalItemValue.value =
            some (encodeHalScalar value) ∧
          ((∀ (other : ℕ) (write' : HalItemWrite F), writes[other]? = some write' →
              hal.addressOf write' = some address → other = index) →
            hal.readValue (doWrite hal stopped memory writes).memory item.type address = value)) ∧
      ∀ cell, (∀ write ∈ writes, hal.addressOf write ≠ some cell) →
        (doWrite hal stopped memory writes).memory cell = memory cell) := by
  generalize hresult : doWrite hal stopped memory writes = outcome
  have houtcome := hresult ▸ doWrite_outcome hal stopped memory writes
  cases houtcome with
  | refused status hstatus => exact ⟨fun _ => rfl, fun hok => absurd hok hstatus⟩
  | written entries hwrites hall =>
    refine ⟨fun hne => absurd rfl hne, fun _ => ⟨?_, fun index write hindex => ?_, fun cell hcell => ?_⟩⟩
    · rw [← hwrites, List.map_map, List.map_map]
      rfl
    · rw [← hwrites, List.getElem?_map] at hindex
      obtain ⟨entry, hentry, rfl⟩ := Option.map_eq_some_iff.mp hindex
      have haccepts := hall entry (List.mem_of_getElem? hentry)
      refine ⟨entry.item, entry.address, entry.value, haccepts.item, haccepts.data, haccepts.unowned,
        haccepts.value, ?_, fun hshared => ?_⟩
      · rw [List.getElem?_map, hentry]
        rfl
      · have hstored : storeAll memory (entries.map fun entry => (entry.address, entry.value))
            entry.address = entry.value := by
          apply storeAll_of_mem
          · rw [List.map_map]
            exact List.mem_map.mpr ⟨entry, List.mem_of_getElem? hentry, rfl⟩
          · intro store hstore hcell
            obtain ⟨other, hother, rfl⟩ := List.mem_map.mp hstore
            obtain ⟨position, hposition, hget⟩ := List.getElem_of_mem hother
            have hsome : entries[position]? = some other := List.getElem?_eq_some_iff.mpr ⟨hposition, hget⟩
            have hsame : position = index := by
              apply hshared position other.write
              · rw [← hwrites, List.getElem?_map, hsome]
                rfl
              · rw [(hall other hother).addressOf]
                exact congrArg some hcell
            rw [hsame, hentry] at hsome
            rw [Option.some.inj hsome]
        exact HalDirectory.readValue_eq hstored haccepts.type
    · apply storeAll_of_notMem
      rw [List.map_map]
      intro hmem
      obtain ⟨entry, hentry, hsame⟩ := List.mem_map.mp hmem
      apply hcell entry.write
      · rw [← hwrites]
        exact List.mem_map_of_mem hentry
      · rw [(hall entry hentry).addressOf]
        exact congrArg some hsame

/-! A pin, a parameter and a signal with one writer. -/

def smallHal : HalDirectory ℤ :=
  { attached := true
    findPin := fun name => if name = ['p'] then some ⟨some .bit, .input, none, 0⟩ else none
    findParam := fun name => if name = ['q'] then some ⟨some .s32, .readWrite, some 1⟩ else none
    findSignal := fun name => if name = ['s'] then some ⟨some .bit, some 2, 1⟩ else none
    reinterpret := fun _ value => value }

def pinAndParam : List (HalItemWrite ℤ) :=
  [⟨⟨some .pin, ['p']⟩, ⟨some .bit, some (.bit true)⟩⟩,
    ⟨⟨some .param, ['q']⟩, ⟨some .s32, some (.s32 5)⟩⟩]

/-- The two items are written; with the signal after them, or a stop at the last poll, neither is. -/
theorem doWrite_atomic_small :
    (HalService.doWrite smallHal (fun _ => false) (fun _ => .bit false) pinAndParam).status.code = .ok ∧
      (HalService.doWrite smallHal (fun _ => false) (fun _ => .bit false) pinAndParam).memory 2 =
        .bit false ∧
      (HalService.doWrite smallHal (fun poll => decide (4 ≤ poll)) (fun _ => .bit false)
        pinAndParam).memory = (fun _ => .bit false) ∧
      (HalService.doWrite smallHal (fun _ => false) (fun _ => .bit false)
        (pinAndParam ++ [⟨⟨some .signal, ['s']⟩, ⟨some .bit, some (.bit true)⟩⟩])).memory =
          fun _ => .bit false := by
  have hok : (HalService.doWrite smallHal (fun _ => false) (fun _ => .bit false)
      pinAndParam).status.code = .ok := by decide +kernel
  refine ⟨hok, ?_, ?_, ?_⟩
  · apply ((HalService.doWrite_atomic smallHal _ _ _).2 hok).2.2
    decide +kernel
  · apply (HalService.doWrite_atomic smallHal _ _ _).1
    decide +kernel
  · apply (HalService.doWrite_atomic smallHal _ _ _).1
    decide +kernel

end LinuxcncCtrl
