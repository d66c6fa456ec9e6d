import LinuxcncCtrl.Spec.ScopeRoll

/-! The ring of `scope_rt` holds the newest samples of everything captured, and the copies of the
controller read them. From two polls of one phase the number of samples between them can be told. -/

namespace LinuxcncCtrl

open Lib

variable {F : Type}

/-- The counters of the ring, and the samples in its window out of all that were captured. -/
structure ScopeShm.Rolls (shm : ScopeShm F) (recLen start samples : ℕ)
    (history : List (ℕ → ScopeData F)) : Prop where
  recLen_eq : shm.recLen = recLen
  bufLen_eq : shm.bufLen = (16 * recLen : ℕ)
  sampleLen_eq : shm.sampleLen = 16
  start_eq : shm.start = start
  samples_eq : shm.samples = samples
  positive : 0 < recLen
  start_lt : start < 16 * recLen
  samples_le : samples ≤ recLen - 1
  kept : samples ≤ history.length
  window : Window shm.buffer (16 * recLen) 16 start (newest samples history)

namespace ScopeShm

variable {shm : ScopeShm F} {recLen start samples : ℕ} {history : List (ℕ → ScopeData F)}

section

variable (h : shm.Rolls recLen start samples history)

include h

theorem Rolls.bufLen : shm.bufLen.toNat = 16 * recLen := by
  rw [h.bufLen_eq, Int.toNat_natCast]

theorem Rolls.first : (shm.start + kScopeChannelCount * shm.samples).toNat = start + 16 * samples := by
  rw [h.start_eq, h.samples_eq, kScopeChannelCount]
  omega

theorem Rolls.capture_grow (hgrow : samples < recLen - 1) (sample : ℕ → ScopeData F) :
    (shm.capture sample).Rolls recLen start (samples + 1) (history ++ [sample]) := by
  have hpush := h.window.push (by rw [length_newest h.kept]; omega) sample
  rw [length_newest h.kept, ← newest_append_singleton] at hpush
  have hphase : shm.samples < shm.recLen - 1 := by
    rw [h.samples_eq, h.recLen_eq]
    omega
  unfold capture
  rw [if_pos hphase, h.first, h.bufLen]
  refine { h with samples_eq := ?_, samples_le := hgrow, kept := ?_, window := hpush }
  · rw [h.samples_eq, Nat.cast_succ]
  · rw [List.length_append, List.length_singleton]
    exact Nat.succ_le_succ h.kept

theorem Rolls.capture_move (hmove : samples = recLen - 1) (sample : ℕ → ScopeData F) :
    (shm.capture sample).Rolls recLen ((start + 16) % (16 * recLen)) samples (history ++ [sample]) := by
  have hpositive := h.positive
  have hpush := h.window.push (by rw [length_newest h.kept]; omega) sample
  rw [length_newest h.kept, ← newest_append_singleton] at hpush
  have hphase : ¬ shm.samples < shm.recLen - 1 := by
    rw [h.samples_eq, h.recLen_eq]
    omega
  have hlength : samples < (history ++ [sample]).length := by
    rw [List.length_append, List.length_singleton]
    exact Nat.lt_succ_of_le h.kept
  obtain ⟨oldest, holdest⟩ := newest_eq_cons hlength
  rw [holdest] at hpush
  unfold capture
  rw [if_neg hphase, h.first, h.bufLen]
  refine ⟨h.recLen_eq, h.bufLen_eq, h.sampleLen_eq, ?_, h.samples_eq, h.positive,
    Nat.mod_lt _ (by omega), h.samples_le, hlength.le, hpush.tail⟩
  rw [h.start_eq, h.bufLen_eq, kScopeChannelCount, ← Nat.cast_add, ← Int.ofNat_tmod]

end

section Copy

variable [Zero F] [One F] [NatCast F] [IntCast F]

theorem Rolls.copyValues_eq (h : shm.Rolls recLen start samples history) {count packed : ℕ}
    (hcount : count ≤ samples) (hpacked : packed < 16) (dataType : HalScopeType) :
    shm.copyValues (shm.samples - count) count dataType packed =
      (newest count history).map fun sample => sampleValue (sample packed) dataType := by
  have hlength := length_newest (hcount.trans h.kept)
  unfold copyValues
  apply List.ext_getElem?
  intro index
  rw [List.getElem?_map, List.getElem?_map, Int.toNat_natCast]
  by_cases hindex : index < count
  · have hsome : index < (newest count history).length := by omega
    have hrecord := List.getElem?_eq_getElem hsome
    have hread := h.window (samples - count + index) _
      ((getElem?_newest history hcount h.kept).symm.trans hrecord) packed hpacked
    have hcell : ((shm.start + (shm.samples - (count : ℤ) + (index : ℤ)) * shm.sampleLen +
        (packed : ℤ)).tmod shm.bufLen).toNat =
          (start + 16 * (samples - count + index) + packed) % (16 * recLen) := by
      have hnat : shm.start + (shm.samples - (count : ℤ) + (index : ℤ)) * shm.sampleLen +
          (packed : ℤ) = (start + 16 * (samples - count + index) + packed : ℕ) := by
        rw [h.start_eq, h.samples_eq, h.sampleLen_eq]
        push_cast [hcount]
        ring
      rw [hnat, h.bufLen_eq, ← Int.ofNat_tmod, Int.toNat_natCast]
    rw [List.getElem?_range hindex, hrecord, Option.map_some, Option.map_some]
    dsimp only
    rw [hcell, hread]
  · rw [List.getElem?_eq_none (by rw [List.length_range]; omega),
      List.getElem?_eq_none (by rw [hlength]; omega)]
    rfl

/-- An enabled channel is copied from behind the enabled channels before it. -/
theorem copyChannels_values (shm : ScopeShm F) (first count : ℤ) {channels : List ScopeShmChannel}
    {index : ℕ} {channel : ScopeShmChannel} (hchannel : channels[index]? = some channel)
    (henabled : channel.dataLen ≠ 0) (packed : ℕ) :
    ScopeChannelSamples.values (shm.copyChannels first count channels packed) index =
      shm.copyValues first count channel.dataType
        (packed + (channels.take index).countP (fun other => other.dataLen ≠ 0) : ℕ) := by
  induction channels generalizing index packed with
  | nil => cases hchannel
  | cons head rest ih =>
    unfold copyChannels
    cases index with
    | zero =>
      cases hchannel
      rw [if_neg henabled]
      rfl
    | succ index =>
      rw [List.getElem?_cons_succ] at hchannel
      split_ifs with hdisabled
      · have hrest := ih hchannel packed
        rw [List.take_succ_cons, List.countP_cons_of_neg (by simp [hdisabled])]
        exact hrest
      · have hrest := ih hchannel (packed + 1)
        rw [List.take_succ_cons, List.countP_cons_of_pos (by simpa using hdisabled),
          Nat.add_comm (List.countP _ _) 1, ← Nat.add_assoc]
        rw [Nat.cast_succ] at hrest
        exact hrest

end Copy

end ScopeShm

variable {start moves recLen : ℕ}

section

variable (hstart : start < 16 * recLen) (hmoves : moves < recLen)

include hstart hmoves

theorem mod_moved :
    (start + 16 * moves < 16 * recLen ∧ (start + 16 * moves) % (16 * recLen) = start + 16 * moves) ∨
      16 * recLen ≤ start + 16 * moves ∧
        (start + 16 * moves) % (16 * recLen) = start + 16 * moves - 16 * recLen := by
  by_cases hlt : start + 16 * moves < 16 * recLen
  · exact .inl ⟨hlt, Nat.mod_eq_of_lt hlt⟩
  · have hge := Nat.le_of_not_lt hlt
    exact .inr ⟨hge, by rw [Nat.mod_eq_sub_mod hge, Nat.mod_eq_of_lt (by omega)]⟩

theorem mod_moved_eq (h : (start + 16 * moves) % (16 * recLen) = start) : moves = 0 := by
  rcases mod_moved hstart hmoves with ⟨_, heq⟩ | ⟨_, heq⟩ <;> omega

/-- The distance from the last start to this one, as the controller computes it. -/
theorem tmod_moved :
    ((((start + 16 * moves) % (16 * recLen) : ℕ) : ℤ) - (start : ℤ) +
      ((16 * recLen : ℕ) : ℤ)).tmod ((16 * recLen : ℕ) : ℤ) = (16 * moves : ℕ) := by
  rw [Int.tmod_eq_emod_of_nonneg (by omega)]
  rcases mod_moved hstart hmoves with ⟨_, heq⟩ | ⟨_, heq⟩
  · rw [heq]
    have hsum : ((start + 16 * moves : ℕ) : ℤ) - (start : ℤ) + ((16 * recLen : ℕ) : ℤ) =
        ((16 * moves : ℕ) : ℤ) + ((16 * recLen : ℕ) : ℤ) := by omega
    rw [hsum, Int.add_emod_right, Int.emod_eq_of_lt (by omega) (by omega)]
  · rw [heq]
    have hsum : ((start + 16 * moves - 16 * recLen : ℕ) : ℤ) - (start : ℤ) +
        ((16 * recLen : ℕ) : ℤ) = ((16 * moves : ℕ) : ℤ) := by omega
    rw [hsum, Int.emod_eq_of_lt (by omega) (by omega)]

end

namespace ScopeController

variable {impl : ScopeController F} {recLen start samples : ℕ} {history : List (ℕ → ScopeData F)}

structure Noted (impl : ScopeController F) (recLen start samples lastStart lastSamples captured : ℕ) :
    Prop where
  initialized : impl.deltaInitialized = true
  sampleLen : impl.deltaSampleLen = 16
  deltaStart : impl.deltaStart = lastStart
  deltaSamples : impl.deltaSamples = lastSamples
  lastStart_lt : lastStart < 16 * recLen
  lastSamples_le : lastSamples ≤ recLen - 1
  grown : samples = min (lastSamples + captured) (recLen - 1)
  moved : start = (lastStart + 16 * (lastSamples + captured - (recLen - 1))) % (16 * recLen)

variable {lastStart lastSamples captured : ℕ}

section

variable (h : impl.shm.Rolls recLen start samples history)
  (hn : impl.Noted recLen start samples lastStart lastSamples captured) (hcaptured : captured < recLen)
  (hphase : lastSamples = recLen - 1 ∨ start = lastStart)

include h hn hcaptured hphase

/-- Within one phase the count is the number of samples captured. -/
theorem countDelta_onePhase : impl.countDelta false = (false, (captured : ℤ)) ∧ captured ≤ samples := by
  have hgrown := hn.grown
  have hle := hn.lastSamples_le
  have hmoved := hn.moved
  -- a window that still grew has not moved
  have hzero : lastSamples < recLen - 1 → lastSamples + captured - (recLen - 1) = 0 := by
    intro hlt
    rcases hphase with hfull | hsame
    · omega
    · rw [hmoved] at hsame
      exact mod_moved_eq hn.lastStart_lt (by omega) hsame
  refine ⟨?_, by omega⟩
  unfold countDelta
  dsimp only
  rw [h.samples_eq, hn.deltaSamples, h.start_eq, hn.deltaStart, h.bufLen_eq, h.sampleLen_eq,
    hn.initialized, hn.sampleLen]
  rw [if_neg (by simp; omega)]
  by_cases hgrew : (lastSamples : ℤ) < (samples : ℤ)
  · rw [if_pos hgrew]
    congr 1
    omega
  · rw [if_neg hgrew]
    have hall : lastSamples + captured - (recLen - 1) = captured := by omega
    rw [hall] at hmoved
    by_cases hmove : (start : ℤ) = (lastStart : ℤ)
    · rw [if_neg (not_not.mpr hmove)]
      rw [hmoved, Nat.cast_inj] at hmove
      rw [mod_moved_eq hn.lastStart_lt hcaptured hmove]
      rfl
    · have hcells := tmod_moved hn.lastStart_lt hcaptured
      rw [← hmoved] at hcells
      have hmod : ((16 * captured : ℕ) : ℤ).tmod 16 = 0 := by
        rw [Nat.cast_mul, Nat.cast_ofNat, Int.mul_tmod_right]
      have hdiv : ((16 * captured : ℕ) : ℤ).tdiv 16 = (captured : ℤ) := by
        rw [Nat.cast_mul, Nat.cast_ofNat, Int.mul_tdiv_cancel_left _ (by decide)]
      rw [if_pos hmove, hcells, hmod, if_neg (not_not.mpr rfl), hdiv]

theorem boundedDelta_onePhase : impl.boundedDelta false = (false, (captured : ℤ)) ∧ captured ≤ samples := by
  obtain ⟨hcount, hle⟩ := countDelta_onePhase h hn hcaptured hphase
  refine ⟨?_, hle⟩
  unfold boundedDelta
  rw [hcount, h.samples_eq, h.recLen_eq]
  exact if_neg (by omega)

end

theorem boundedDelta_first (hfirst : impl.deltaInitialized = false) (ambiguousWrap : Bool) :
    impl.boundedDelta ambiguousWrap = (true, impl.shm.samples) := by
  have hcount : impl.countDelta ambiguousWrap = (true, impl.shm.samples) := if_pos (.inl hfirst)
  unfold boundedDelta
  rw [hcount]
  dsimp only
  split_ifs <;> rfl

structure Rolling (impl : ScopeController F) : Prop where
  polling : impl.polling = true
  owner : impl.owner ≠ []
  attached : impl.attached = true
  runMode : impl.runMode = .roll
  running : impl.running = true
  channels : impl.shm.channels.length = kScopeChannelCount

def Touched (impl impl' : ScopeController F) : Prop :=
  ∃ watchdog state heartbeatAt frames, impl' =
    { impl with shm := { impl.shm with watchdog, state }, heartbeatAt, frames }

theorem touched_beat (impl : ScopeController F) (now : ℤ) : impl.Touched (impl.beat now) := by
  unfold beat
  split_ifs
  · exact ⟨_, _, _, _, rfl⟩
  · exact ⟨_, _, _, _, rfl⟩

variable {impl' : ScopeController F}

theorem Touched.trans {impl'' : ScopeController F} (h : impl.Touched impl')
    (h' : impl'.Touched impl'') : impl.Touched impl'' := by
  obtain ⟨_, _, _, _, rfl⟩ := h
  obtain ⟨_, _, _, _, rfl⟩ := h'
  exact ⟨_, _, _, _, rfl⟩

theorem Touched.rolling (h : impl.Touched impl') (hrolling : impl.Rolling) : impl'.Rolling := by
  obtain ⟨_, _, _, _, rfl⟩ := h
  exact { hrolling with }

theorem Touched.rolls (h : impl.Touched impl') (hrolls : impl.shm.Rolls recLen start samples history) :
    impl'.shm.Rolls recLen start samples history := by
  obtain ⟨_, _, _, _, rfl⟩ := h
  exact { hrolls with }

def noted (impl : ScopeController F) (now : ℤ) (sequence : ℕ) : ScopeController F :=
  { impl with
    deltaInitialized := true
    deltaStart := impl.shm.start
    deltaSamples := impl.shm.samples
    deltaSampleLen := impl.shm.sampleLen
    deltaSnapshotAt := now
    deltaSequence := sequence }

section Poll

variable [Zero F] [One F] [NatCast F] [IntCast F]

theorem pollOnce_rolling (h : impl.Rolling) (period now : ℤ) :
    impl.pollOnce period now = .ok ((impl.beat now).pollRoll period now) := by
  have hbeat := (impl.touched_beat now).rolling h
  have hskip : ¬ (impl.polling = false ∨ impl.owner = []) := by
    rw [h.polling]
    simpa using h.owner
  unfold pollOnce ensureAttached
  rw [if_neg hskip, if_pos h.attached]
  rw [if_pos ⟨hbeat.runMode, hbeat.running⟩]
  rfl

theorem copyDelta_empty (h : impl.Rolling) (hsamples : impl.shm.samples = 0) (period now : ℤ) :
    impl.copyDeltaUnlocked period now = .ok (none, impl) := by
  unfold copyDeltaUnlocked ensureAttached
  rw [if_pos h.attached]
  rw [if_pos hsamples.le]
  rfl

def deltaOf (impl : ScopeController F) (period : ℤ) (counted : Bool × ℤ) : ScopeCaptureDelta F :=
  { channels :=
      impl.shm.copyChannels (impl.shm.samples - counted.2) counted.2 impl.shm.channels 0
    samples := counted.2
    capacity := impl.shm.recLen
    sequence :=
      if counted.1 then impl.shm.samples.toNat else impl.deltaSequence + counted.2.toNat
    samplePeriodNs := period
    reset := counted.1 }

theorem copyDelta_eq (h : impl.Rolling) (hrolls : impl.shm.Rolls recLen start samples history)
    (hsamples : 0 < samples) (period now : ℤ) {counted : Bool × ℤ}
    (hcounted : impl.boundedDelta (impl.ambiguousWrap period now) = counted) :
    impl.copyDeltaUnlocked period now = .ok
      (if counted.2 = 0 then (none, impl.noted now impl.deltaSequence)
      else (some (impl.deltaOf period counted),
        impl.noted now (impl.deltaOf period counted).sequence)) := by
  have hle := hrolls.samples_le
  have hstart := hrolls.start_lt
  have hbounds : ¬ (impl.shm.sampleLen ≠ kScopeChannelCount ∨ impl.shm.recLen ≤ 0 ∨
      impl.shm.recLen < impl.shm.samples ∨ impl.shm.start < 0 ∨
      impl.shm.bufLen ≤ impl.shm.start) := by
    rw [hrolls.sampleLen_eq, hrolls.recLen_eq, hrolls.samples_eq, hrolls.start_eq, hrolls.bufLen_eq,
      kScopeChannelCount]
    omega
  have hpositive : ¬ impl.shm.samples ≤ 0 := by
    rw [hrolls.samples_eq]
    omega
  unfold copyDeltaUnlocked ensureAttached
  rw [if_pos h.attached]
  rw [if_neg hpositive, if_neg hbounds, hcounted]
  dsimp only [pure, Except.pure]
  by_cases hzero : counted.2 = 0
  · rw [if_pos hzero, if_pos hzero]
    rfl
  · rw [if_neg hzero, if_neg hzero]
    rfl

theorem pollRoll_touched {delta : Option (ScopeCaptureDelta F)}
    {period now : ℤ} (hcopy : impl.copyDeltaUnlocked period now = .ok (delta, impl')) :
    ∃ impl'', impl.pollRoll period now = (delta, impl'') ∧ impl'.Touched impl'' := by
  have hstate : ∀ touched : ScopeController F,
      touched.Touched (if touched.shm.state = .done then touched.setState .init else touched) := by
    intro touched
    split_ifs
    · exact ⟨_, _, _, _, rfl⟩
    · exact ⟨_, _, _, _, rfl⟩
  unfold pollRoll
  rw [hcopy]
  cases delta with
  | none => exact ⟨_, rfl, hstate impl'⟩
  | some delta => exact ⟨_, rfl, Touched.trans ⟨_, _, _, _, rfl⟩ (hstate _)⟩

end Poll

end ScopeController

end LinuxcncCtrl
