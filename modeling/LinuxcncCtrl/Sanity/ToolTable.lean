import LinuxcncCtrl.Spec.ToolTable

/-! What the parts of a tool table edit do: where a tool is found, where its entry goes, and what the table
looks like afterwards. -/

namespace LinuxcncCtrl

variable {D Line : Type} {library : ToolLibrary D Line}

namespace ToolTable

variable {table : ToolTable D} {random : Bool} {toolno : ℤ} {idx : ℕ}

theorem findTool_some (h : table.findTool random toolno = some idx) :
    (table.entries idx).toolno = toolno ∧ idx ≤ table.last := by
  unfold findTool at h
  split at h
  · next found hfind =>
    cases h
    have hholds := List.find?_some hfind
    have hmem := List.mem_range.mp (List.mem_of_find?_eq_some hfind)
    exact ⟨(of_decide_eq_true hholds).1, Nat.lt_succ_iff.mp hmem⟩
  · obtain ⟨hzero, ⟨⟩⟩ := Option.ite_none_right_eq_some.mp h
    exact ⟨hzero, Nat.zero_le _⟩

theorem findTool_none (h : table.findTool random toolno = none) (hidx : idx ≤ table.last) :
    (table.entries idx).toolno ≠ toolno := by
  unfold findTool at h
  split at h
  · cases h
  · next hfind =>
    intro htool
    rcases Nat.eq_zero_or_pos idx with hzero | hpos
    · rw [hzero] at htool
      rw [if_pos htool] at h
      cases h
    · have hfalse := List.find?_eq_none.mp hfind idx (List.mem_range.mpr (Nat.lt_succ_of_le hidx))
      simp [htool, hpos.ne'] at hfalse

theorem firstHole_spec (table : ToolTable D) :
    (table.entries table.firstHole).toolno < 0 ∨ table.last < table.firstHole := by
  unfold firstHole
  cases hfind : (List.range (table.last + 1)).find?
      fun idx => idx ≠ 0 ∧ (table.entries idx).toolno < 0 with
  | none => exact .inr (Nat.lt_succ_self _)
  | some idx =>
    have hholds := List.find?_some hfind
    exact .inl (of_decide_eq_true hholds).2

theorem trimLast_le (entries : ℕ → CanonTool D) (last : ℕ) : trimLast entries last ≤ last := by
  induction last with
  | zero => exact Nat.le_refl 0
  | succ last ih =>
    unfold trimLast
    split_ifs
    · exact Nat.le_succ_of_le ih
    · exact Nat.le_refl _

theorem trimLast_beyond {entries : ℕ → CanonTool D} {last : ℕ} (hidx : trimLast entries last < idx)
    (hlast : idx ≤ last) : (entries idx).toolno < 0 := by
  induction last with
  | zero => exact absurd (Nat.lt_of_lt_of_le hidx hlast) (Nat.not_lt_zero _)
  | succ last ih =>
    unfold trimLast at hidx
    split_ifs at hidx with hempty
    · rcases Nat.lt_or_eq_of_le hlast with hlt | heq
      · exact ih hidx (Nat.le_of_lt_succ hlt)
      · rw [heq]
        exact hempty
    · exact absurd hlast (Nat.not_le.mpr hidx)

theorem Valid.toolno_inj (h : table.Valid library random) {other : ℕ} (hidx : idx ≤ table.last)
    (hother : other ≤ table.last) (hcounts : random = true ∨ idx ≠ 0)
    (hotherCounts : random = true ∨ other ≠ 0) (htool : 0 ≤ (table.entries idx).toolno)
    (heq : (table.entries other).toolno = (table.entries idx).toolno) : idx = other := by
  rcases Nat.lt_trichotomy idx other with hlt | rfl | hlt
  · have hunique := (h idx (Nat.lt_succ_of_le hidx) hcounts htool).2
    exact absurd heq (hunique other (Nat.lt_succ_of_le hother) hlt (heq ▸ htool)).1
  · rfl
  · have hunique := (h other (Nat.lt_succ_of_le hother) hotherCounts (heq ▸ htool)).2
    exact absurd heq.symm (hunique idx (Nat.lt_succ_of_le hidx) hlt htool).1

/-- A table is valid when its tools are, when their numbers differ, and when in a random changer they are at
the index of their pocket. -/
theorem valid_of (hentries : ∀ idx, random = true ∨ idx ≠ 0 → 0 ≤ (table.entries idx).toolno →
      (table.entries idx).Valid library)
    (hinj : ∀ idx other, random = true ∨ idx ≠ 0 → random = true ∨ other ≠ 0 → idx ≠ other →
      0 ≤ (table.entries idx).toolno → (table.entries other).toolno ≠ (table.entries idx).toolno)
    (hpockets : random = true → ∀ idx, 0 ≤ (table.entries idx).toolno →
      (table.entries idx).pocketno = idx) : table.Valid library random := by
  intro idx _ hcounts htool
  refine ⟨hentries idx hcounts htool, fun other _ hlt hother => ⟨?_, fun hrandom => ?_⟩⟩
  · exact hinj idx other hcounts (.inr (Nat.ne_zero_of_lt hlt)) hlt.ne htool
  · rw [hpockets hrandom idx htool, hpockets hrandom other hother]
    exact fun heq => hlt.ne' (Int.ofNat.inj heq)

end ToolTable

theorem ToolLibrary.entryInit_toolno (library : ToolLibrary D Line) : library.entryInit.toolno < 0 := by
  simp [entryInit]

/-- The entry a request makes of a valid one, or of an empty one, is valid when its pocket is. -/
theorem ToolUpdate.apply_valid {update : ToolUpdate D} (h : update.Accepted library)
    {entry : CanonTool D} (hentry : entry.Valid library)
    (hpocket : update.has .pocket = true → 0 < update.pocket ∧ update.pocket < canonPocketsMax) :
    (update.apply entry).Valid library := by
  unfold ToolUpdate.apply
  refine ⟨?_, ?_, ?_, ⟨?_, ?_⟩, fun axis => ⟨?_, ?_⟩⟩
  · dsimp only
    split_ifs with hhas
    · exact ⟨(hpocket hhas).1.le, (hpocket hhas).2⟩
    · exact hentry.pocketno
  · dsimp only
    split_ifs
    · exact h.orientation
    · exact hentry.orientation
  · dsimp only
    split_ifs with hhas
    · exact h.diameter hhas
    · exact hentry.diameter
  · dsimp only
    split_ifs with hhas
    · exact h.frontangle hhas
    · exact hentry.angles.1
  · dsimp only
    split_ifs with hhas
    · exact h.backangle hhas
    · exact hentry.angles.2
  · dsimp only
    split_ifs with hhas
    · exact (h.axes axis).1 hhas
    · exact (hentry.axes axis).1
  · dsimp only
    split_ifs with hhas
    · exact (h.axes axis).2 hhas
    · exact (hentry.axes axis).2

theorem ToolLibrary.entryInit_valid (library : ToolLibrary D Line) : library.entryInit.Valid library :=
  ⟨by simp [entryInit, canonPocketsMax], by simp [entryInit], ⟨library.zero_finite, library.zero_notNegative⟩,
    ⟨library.zero_finite, library.zero_finite⟩, fun _ => ⟨library.zero_finite, library.zero_finite⟩⟩

namespace ToolTask

variable {task : ToolTask D Line} {update : ToolUpdate D} {found : Option ℕ} {destination : ℕ}

structure Target (task : ToolTask D Line) (update : ToolUpdate D) (found : Option ℕ) (destination : ℕ) :
    Prop where
  bound : destination < canonPocketsMax
  free : found = some destination ∨ (task.table.entries destination).toolno < 0 ∨
    task.table.last < destination
  stays : ∀ idx, found = some idx → idx ≠ destination → ¬ task.Active update.toolno idx
  zero : destination = 0 → task.random = true
  spindle : task.random = false → found ≠ some 0
  pocket : update.has .pocket = true → 0 < update.pocket ∧ update.pocket < canonPocketsMax
  random : task.random = true → update.has .pocket = true → (update.pocket : ℤ) = destination
  kept : update.has .pocket = false → found = some destination

theorem destination_target (h : task.destination update found = some destination) :
    Target task update found destination := by
  obtain ⟨hcreating, h⟩ := Option.ite_none_left_eq_some.mp h
  obtain ⟨hpocket, h⟩ := Option.ite_none_left_eq_some.mp h
  obtain ⟨hrange, h⟩ := Option.ite_none_left_eq_some.mp h
  have hdestination := Option.some.inj h
  rw [hdestination] at hrange
  obtain ⟨hbound, hzero⟩ := not_or.mp hrange
  have hzero : destination = 0 → task.random = true ∧ found = some 0 := fun heq => by
    by_contra hnot
    exact hzero ⟨heq, hnot⟩
  -- what the pocket of the request has passed
  have hpassed : update.has .pocket = true → (0 < update.pocket ∧ update.pocket < canonPocketsMax) ∧
      (task.random = true → (found = some update.pocket.toNat ∨
        (task.table.entries update.pocket.toNat).toolno < 0) ∧
        ∀ idx, found = some idx → idx ≠ update.pocket.toNat → ¬ task.Active update.toolno idx) := by
    intro hhas
    have hnot : ¬ task.PocketRefused update found := fun hrefused => hpocket ⟨hhas, hrefused⟩
    unfold PocketRefused at hnot
    simp only [not_or] at hnot
    obtain ⟨hpos, hmax, -, -, htaken, hactive⟩ := hnot
    refine ⟨⟨not_le.mp hpos, not_le.mp hmax⟩, fun hrandom => ⟨?_, fun idx hidx hne hmoved => ?_⟩⟩
    · by_contra hneither
      obtain ⟨hother, hoccupied⟩ := not_or.mp hneither
      exact htaken ⟨hrandom, hother, not_lt.mp hoccupied⟩
    · exact hactive ⟨hrandom, idx, hidx, hne, hmoved⟩
  split_ifs at hdestination with hboth
  · obtain ⟨hrandom, hhas⟩ := hboth
    obtain ⟨⟨hpos, hmax⟩, hfree⟩ := hpassed hhas
    obtain ⟨hvacant, hstays⟩ := hfree hrandom
    rw [hdestination] at hvacant hstays
    refine ⟨not_le.mp hbound, hvacant.imp_right .inl, hstays, fun _ => hrandom, fun hfalse => ?_,
      fun _ => ⟨hpos, hmax⟩, fun _ _ => ?_, fun hnone => ?_⟩
    · cases hrandom.symm.trans hfalse
    · rw [← hdestination, Int.toNat_of_nonneg hpos.le]
    · cases hhas.symm.trans hnone
  · refine ⟨not_le.mp hbound, ?_, ?_, fun heq => (hzero heq).1, fun hfalse hspindle => ?_,
      fun hhas => (hpassed hhas).1, fun hrandom hhas => absurd ⟨hrandom, hhas⟩ hboth, fun hnone => ?_⟩
    · cases found with
      | some idx => exact .inl (congrArg some hdestination)
      | none =>
        rw [← hdestination]
        exact .inr task.table.firstHole_spec
    · rintro idx rfl hne
      exact absurd hdestination hne
    · rw [hspindle] at hdestination
      exact absurd ((hzero hdestination.symm).1.symm.trans hfalse) (by decide)
    · cases found with
      | some idx => exact congrArg some hdestination
      | none => exact absurd ⟨rfl, hnone⟩ hcreating

def newEntry (library : ToolLibrary D Line) (task : ToolTask D Line) (update : ToolUpdate D)
    (found : Option ℕ) : CanonTool D :=
  update.apply (found.elim library.entryInit task.table.entries)

theorem place_entries (idx : ℕ) : (task.place library update found destination).entries idx =
      if (task.random = false ∧ task.toolInSpindle = update.toolno) ∧ idx = 0 ∨ idx = destination then
        task.newEntry library update found
      else if found = some idx then library.entryInit
      else task.table.entries idx := by
  have hvacated : ∀ idx ≠ destination, (found.elim task.table.entries fun idx =>
        if idx ≠ destination then Function.update task.table.entries idx library.entryInit
        else task.table.entries) idx =
      if found = some idx then library.entryInit else task.table.entries idx := by
    intro idx hne
    cases found with
    | none => rfl
    | some old =>
      dsimp only [Option.elim]
      by_cases hold : old = idx
      · rw [hold, if_pos hne, if_pos rfl, Function.update_self]
      · rw [if_neg (fun heq => hold (Option.some.inj heq))]
        split_ifs
        · exact Function.update_of_ne (Ne.symm hold) _ _
        · rfl
  have hplaced : ∀ idx, Function.update (found.elim task.table.entries fun idx =>
        if idx ≠ destination then Function.update task.table.entries idx library.entryInit
        else task.table.entries) destination (task.newEntry library update found) idx =
      if idx = destination then task.newEntry library update found
      else if found = some idx then library.entryInit
      else task.table.entries idx := by
    intro idx
    by_cases hdestination : idx = destination
    · rw [hdestination, Function.update_self, if_pos rfl]
    · rw [Function.update_of_ne hdestination, if_neg hdestination, hvacated idx hdestination]
  unfold place
  dsimp only
  by_cases hspindle : task.random = false ∧ task.toolInSpindle = update.toolno
  · rw [if_pos hspindle]
    by_cases hzero : idx = 0
    · rw [hzero, Function.update_self, if_pos (.inl ⟨hspindle, rfl⟩)]
      rfl
    · rw [Function.update_of_ne hzero]
      refine (hplaced idx).trans ?_
      simp [hspindle, hzero]
  · rw [if_neg hspindle]
    refine (hplaced idx).trans ?_
    simp [hspindle]

end ToolTask

end LinuxcncCtrl
