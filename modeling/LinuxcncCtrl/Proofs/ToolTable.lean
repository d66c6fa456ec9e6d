import LinuxcncCtrl.Sanity.ToolTable

/-! Edits of the tool table: they keep the table sound and touch one tool only, or leave it as it was. -/

namespace LinuxcncCtrl

variable {D Line : Type} {library : ToolLibrary D Line}

namespace ToolTask

variable {task : ToolTask D Line} {update : ToolUpdate D} {found : Option ℕ} {destination : ℕ}

structure Placing (library : ToolLibrary D Line) (task : ToolTask D Line) (update : ToolUpdate D)
    (found : Option ℕ) (destination : ℕ) : Prop where
  sound : task.Sound library task.table
  accepted : update.Accepted library
  search : task.table.findTool task.random update.toolno = found
  target : Target task update found destination

namespace Placing

variable {idx : ℕ}

/-- The new entry is at the destination, also when the destination is the spindle. -/
theorem entries_destination : (task.place library update found destination).entries destination =
      task.newEntry library update found := by
  rw [place_entries, if_pos (.inr rfl)]

variable (h : Placing library task update found destination)

include h

theorem toolno_found (hidx : found = some idx) :
    (task.table.entries idx).toolno = update.toolno ∧ idx ≤ task.table.last :=
  ToolTable.findTool_some (h.search.trans hidx)

theorem occupied (hidx : found = some idx) : 0 ≤ (task.table.entries idx).toolno :=
  (h.toolno_found hidx).1 ▸ h.accepted.toolno.le

theorem le_last (hidx : 0 ≤ (task.table.entries idx).toolno) : idx ≤ task.table.last := by
  by_contra hbeyond
  exact absurd (h.sound.beyond idx (not_le.mp hbeyond)) (not_lt.mpr hidx)

theorem free : found = some destination ∨ (task.table.entries destination).toolno < 0 := by
  rcases h.target.free with hfound | hempty | hbeyond
  · exact .inl hfound
  · exact .inr hempty
  · exact .inr (h.sound.beyond destination hbeyond)

/-- An entry of the old table with the number of the tool is the one that was found. -/
theorem eq_found (hcounts : task.random = true ∨ idx ≠ 0)
    (htool : (task.table.entries idx).toolno = update.toolno) : found = some idx := by
  have hidx : idx ≤ task.table.last := h.le_last (htool ▸ h.accepted.toolno.le)
  cases hfound : found with
  | none => exact absurd htool (ToolTable.findTool_none (h.search.trans hfound) hidx)
  | some other =>
    obtain ⟨hother, hlast⟩ := h.toolno_found hfound
    have hotherCounts : task.random = true ∨ other ≠ 0 := by
      cases hrandom : task.random with
      | true => exact .inl rfl
      | false =>
        refine .inr fun hzero => h.target.spindle hrandom ?_
        rw [hfound, hzero]
    have heq := h.sound.valid.toolno_inj hidx hlast hcounts hotherCounts
      (htool ▸ h.accepted.toolno.le) (hother.trans htool.symm)
    rw [heq]

theorem newEntry_valid : (task.newEntry library update found).Valid library := by
  refine ToolUpdate.apply_valid h.accepted ?_ h.target.pocket
  cases hfound : found with
  | none => exact library.entryInit_valid
  | some idx =>
    refine (h.sound.valid idx (Nat.lt_succ_of_le (h.toolno_found hfound).2) ?_ (h.occupied hfound)).1
    cases hrandom : task.random with
    | true => exact .inl rfl
    | false => exact .inr fun hzero => h.target.spindle hrandom (hfound.trans (congrArg some hzero))

theorem newEntry_pocketno (hrandom : task.random = true) :
    (task.newEntry library update found).pocketno = destination := by
  unfold newEntry ToolUpdate.apply
  dsimp only
  split_ifs with hhas
  · exact h.target.random hrandom hhas
  · have hfound := h.target.kept (Bool.eq_false_of_not_eq_true hhas)
    rw [hfound]
    exact h.sound.pockets hrandom destination (h.occupied hfound)

/-- An index that counts and is in use after the update has the tool, or what it had before. -/
theorem entries_cases (hcounts : task.random = true ∨ idx ≠ 0)
    (htool : 0 ≤ ((task.place library update found destination).entries idx).toolno) :
    idx = destination ∧
        (task.place library update found destination).entries idx = task.newEntry library update found ∨
      idx ≠ destination ∧ (task.table.entries idx).toolno ≠ update.toolno ∧
        (task.place library update found destination).entries idx = task.table.entries idx := by
  rw [place_entries] at htool ⊢
  have hnotMirror : ¬ ((task.random = false ∧ task.toolInSpindle = update.toolno) ∧ idx = 0) := by
    rintro ⟨⟨hrandom, -⟩, hzero⟩
    rcases hcounts with htrue | hne
    · cases htrue.symm.trans hrandom
    · exact hne hzero
  by_cases hdestination : idx = destination
  · exact .inl ⟨hdestination, if_pos (.inr hdestination)⟩
  · rw [if_neg (not_or.mpr ⟨hnotMirror, hdestination⟩)] at htool ⊢
    by_cases hfound : found = some idx
    · rw [if_pos hfound] at htool
      exact absurd library.entryInit_toolno (not_lt.mpr htool)
    · rw [if_neg hfound]
      exact .inr ⟨hdestination, fun heq => hfound (h.eq_found hcounts heq), rfl⟩

theorem valid : (task.place library update found destination).Valid library task.random := by
  apply ToolTable.valid_of
  · intro idx hcounts htool
    rcases h.entries_cases hcounts htool with ⟨-, hnew⟩ | ⟨-, -, hold⟩
    · rw [hnew]
      exact h.newEntry_valid
    · rw [hold] at htool ⊢
      exact (h.sound.valid idx (Nat.lt_succ_of_le (h.le_last htool)) hcounts htool).1
  · intro idx other hcounts hotherCounts hne htool heq
    have hotherTool := heq ▸ htool
    rcases h.entries_cases hcounts htool with ⟨rfl, hnew⟩ | ⟨-, hdiffers, hold⟩
    · rcases h.entries_cases hotherCounts hotherTool with ⟨rfl, -⟩ | ⟨-, hdiffers, hold⟩
      · exact hne rfl
      · rw [hnew, hold] at heq
        exact hdiffers heq
    · rcases h.entries_cases hotherCounts hotherTool with ⟨rfl, hnew⟩ | ⟨-, -, hother⟩
      · rw [hnew, hold] at heq
        exact hdiffers heq.symm
      · rw [hold, hother] at heq
        rw [hold] at htool
        exact hne (h.sound.valid.toolno_inj (h.le_last htool) (h.le_last (heq ▸ htool)) hcounts
          hotherCounts htool heq)
  · intro hrandom idx htool
    rcases h.entries_cases (.inl hrandom) htool with ⟨rfl, hnew⟩ | ⟨-, -, hold⟩
    · rw [hnew]
      exact h.newEntry_pocketno hrandom
    · rw [hold] at htool ⊢
      exact h.sound.pockets hrandom idx htool

/-- The mirror of a tool in the spindle that is not the one of the request. -/
theorem mirror_kept (hrandom : task.random = false) (hspindle : task.toolInSpindle ≠ update.toolno)
    (htool : 0 ≤ ((task.place library update found destination).entries 0).toolno) :
    ((task.place library update found destination).entries 0).toolno = task.toolInSpindle ∧
      ∃ idx, idx ≠ 0 ∧ (task.place library update found destination).entries idx =
        (task.place library update found destination).entries 0 := by
  have hzero : 0 ≠ destination := fun heq => absurd ((h.target.zero heq.symm).symm.trans hrandom) (by decide)
  have hentry : (task.place library update found destination).entries 0 = task.table.entries 0 := by
    rw [place_entries, if_neg, if_neg (h.target.spindle hrandom)]
    rintro (⟨⟨-, heq⟩, -⟩ | heq)
    · exact hspindle heq
    · exact hzero heq
  rw [hentry] at htool ⊢
  obtain ⟨hmirrored, idx, hidx, heq⟩ := h.sound.mirror hrandom htool
  have hother : (task.table.entries idx).toolno = task.toolInSpindle := heq ▸ hmirrored
  refine ⟨hmirrored, idx, hidx, ?_⟩
  have hnotFound : found ≠ some idx := by
    intro hfound
    exact hspindle (hother.symm.trans (h.toolno_found hfound).1)
  have hnotDestination : idx ≠ destination := by
    rintro rfl
    rcases h.free with hfound | hempty
    · exact hnotFound hfound
    · rw [heq] at hempty
      exact absurd htool (not_le.mpr hempty)
  rw [place_entries, if_neg, if_neg hnotFound]
  · exact heq
  · rintro (⟨-, heq⟩ | heq)
    · exact hidx heq
    · exact hnotDestination heq

theorem sound_place : task.Sound library (task.place library update found destination) := by
  refine ⟨Nat.max_lt.mpr ⟨h.sound.last, h.target.bound⟩, h.valid, fun idx hidx => ?_,
    fun hrandom idx htool => ?_, fun hrandom htool => ?_⟩
  · obtain ⟨hlast, hdestination⟩ := Nat.max_lt.mp hidx
    have hnotFound : found ≠ some idx := fun hfound =>
      absurd (h.toolno_found hfound).2 (not_le.mpr hlast)
    rw [place_entries, if_neg, if_neg hnotFound]
    · exact h.sound.beyond idx hlast
    · rintro (⟨-, heq⟩ | heq)
      · omega
      · omega
  · rcases h.entries_cases (.inl hrandom) htool with ⟨rfl, hnew⟩ | ⟨-, -, hold⟩
    · rw [hnew]
      exact h.newEntry_pocketno hrandom
    · rw [hold] at htool ⊢
      exact h.sound.pockets hrandom idx htool
  · by_cases hspindle : task.toolInSpindle = update.toolno
    · have hentry : (task.place library update found destination).entries 0 =
          task.newEntry library update found := by
        rw [place_entries, if_pos (.inl ⟨⟨hrandom, hspindle⟩, rfl⟩)]
      rw [hentry]
      refine ⟨hspindle.symm, destination, fun heq => ?_, entries_destination⟩
      exact absurd ((h.target.zero heq).symm.trans hrandom) (by decide)
    · exact h.mirror_kept hrandom hspindle htool

theorem onlyTool : task.OnlyTool update.toolno (task.place library update found destination) := by
  intro idx
  rw [place_entries]
  split_ifs with hnew hfound
  · refine .inr ⟨?_, .inl rfl, fun hzero hrandom => ?_⟩
    · rcases hnew with ⟨⟨hrandom, hspindle⟩, rfl⟩ | rfl
      · by_cases htool : 0 ≤ (task.table.entries 0).toolno
        · exact .inl ((h.sound.mirror hrandom htool).1.trans hspindle)
        · exact .inr (not_le.mp htool)
      · exact h.free.imp_left fun hfound => (h.toolno_found hfound).1
    · rcases hnew with ⟨⟨-, hspindle⟩, -⟩ | hdestination
      · exact hspindle
      · exact absurd ((h.target.zero (hdestination ▸ hzero)).symm.trans hrandom) (by decide)
  · refine .inr ⟨.inl (h.toolno_found hfound).1, .inr library.entryInit_toolno, fun hzero hrandom => ?_⟩
    exact absurd (hzero ▸ hfound) (h.target.spindle hrandom)
  · exact .inl rfl

end Placing

variable {table : ToolTable D} {toolno : ℤ}

theorem updateTable_placing (hsound : task.Sound library task.table)
    (h : task.updateTable library update = some table) :
    ∃ found destination, Placing library task update found destination ∧
      table = task.place library update found destination := by
  obtain ⟨⟨-, haccepted⟩, h⟩ := Option.ite_none_right_eq_some.mp h
  obtain ⟨destination, hdestination, htable⟩ := Option.map_eq_some_iff.mp h
  exact ⟨_, destination, ⟨hsound, haccepted, rfl, destination_target hdestination⟩, htable.symm⟩

theorem deleteTable_spec (hsound : task.Sound library task.table)
    (h : task.deleteTable library toolno = some table) :
    task.Sound library table ∧ task.OnlyTool toolno table ∧ ∀ idx, (table.entries idx).toolno ≠ toolno := by
  obtain ⟨⟨-, hpos, hspindle⟩, h⟩ := Option.ite_none_right_eq_some.mp h
  split at h
  · cases h
  · next idx hfound =>
    obtain ⟨hrefused, h⟩ := Option.ite_none_left_eq_some.mp h
    obtain rfl := (Option.some.inj h).symm
    obtain ⟨hzero, -⟩ := not_or.mp hrefused
    obtain ⟨htool, hlast⟩ := ToolTable.findTool_some hfound
    have hself : (Function.update task.table.entries idx library.entryInit) idx = library.entryInit :=
      Function.update_self ..
    have hother : ∀ other ≠ idx, (Function.update task.table.entries idx library.entryInit) other =
        task.table.entries other := fun other hne => Function.update_of_ne hne _ _
    -- what is in use after the deletion is another tool
    have hkept : ∀ other, 0 ≤ (Function.update task.table.entries idx library.entryInit other).toolno →
        other ≠ idx ∧ other ≤ task.table.last := by
      intro other hoccupied
      have hne : other ≠ idx := by
        rintro rfl
        rw [hself] at hoccupied
        exact absurd library.entryInit_toolno (not_lt.mpr hoccupied)
      refine ⟨hne, ?_⟩
      rw [hother other hne] at hoccupied
      by_contra hbeyond
      exact absurd (hsound.beyond other (not_le.mp hbeyond)) (not_lt.mpr hoccupied)
    have hdiffers : ∀ other ≠ idx, (task.table.entries other).toolno ≠ toolno := by
      intro other hne heq
      have hle : other ≤ task.table.last := (hkept other (by rw [hother other hne, heq]; exact hpos.le)).2
      have hcounts : task.random = true ∨ other ≠ 0 := by
        cases hrandom : task.random with
        | true => exact .inl rfl
        | false =>
          refine .inr fun hother0 => ?_
          rw [hother0] at heq
          exact hspindle (heq.symm.trans (hsound.mirror hrandom (heq ▸ hpos.le)).1)
      exact hne (hsound.valid.toolno_inj hle hlast hcounts (.inr hzero) (heq ▸ hpos.le)
        (htool.trans heq.symm))
    refine ⟨⟨?_, ?_, fun other hbeyond => ?_, fun hrandom other hoccupied => ?_,
      fun hrandom hoccupied => ?_⟩, fun other => ?_, fun other heq => ?_⟩
    · exact Nat.lt_of_le_of_lt (ToolTable.trimLast_le _ _) hsound.last
    · apply ToolTable.valid_of
      · intro other hcounts hoccupied
        obtain ⟨hne, hle⟩ := hkept other hoccupied
        dsimp only at hoccupied ⊢
        rw [hother other hne] at hoccupied ⊢
        exact (hsound.valid other (Nat.lt_succ_of_le hle) hcounts hoccupied).1
      · intro one other hcounts hotherCounts hne hoccupied heq
        obtain ⟨hneOne, hleOne⟩ := hkept one hoccupied
        obtain ⟨hneOther, hleOther⟩ := hkept other (heq ▸ hoccupied)
        dsimp only at hoccupied heq
        rw [hother one hneOne] at hoccupied heq
        rw [hother other hneOther] at heq
        exact hne (hsound.valid.toolno_inj hleOne hleOther hcounts hotherCounts hoccupied heq)
      · intro hrandom other hoccupied
        obtain ⟨hne, -⟩ := hkept other hoccupied
        dsimp only at hoccupied ⊢
        rw [hother other hne] at hoccupied ⊢
        exact hsound.pockets hrandom other hoccupied
    · by_contra hoccupied
      obtain ⟨-, hle⟩ := hkept other (not_lt.mp hoccupied)
      exact hoccupied (ToolTable.trimLast_beyond hbeyond hle)
    · obtain ⟨hne, -⟩ := hkept other hoccupied
      dsimp only at hoccupied ⊢
      rw [hother other hne] at hoccupied ⊢
      exact hsound.pockets hrandom other hoccupied
    · dsimp only at hoccupied ⊢
      rw [hother 0 (Ne.symm hzero)] at hoccupied ⊢
      obtain ⟨hmirrored, copy, hcopy, hcopied⟩ := hsound.mirror hrandom hoccupied
      refine ⟨hmirrored, copy, hcopy, ?_⟩
      rw [hother copy, hcopied]
      rintro rfl
      rw [hcopied, hmirrored] at htool
      exact hspindle htool.symm
    · by_cases hne : other = idx
      · rw [hne]
        dsimp only
        rw [hself]
        exact .inr ⟨.inl htool, .inr library.entryInit_toolno, fun heq => absurd heq hzero⟩
      · exact .inl (hother other hne)
    · by_cases hne : other = idx
      · rw [hne] at heq
        dsimp only at heq
        rw [hself] at heq
        exact absurd library.entryInit_toolno (not_lt.mpr (heq ▸ hpos.le))
      · dsimp only at heq
        rw [hother other hne] at heq
        exact hdiffers other hne heq

theorem saveSnapshot_other (library : ToolLibrary D Line) (task : ToolTask D Line)
    (outcome : SaveOutcome) (table : ToolTable D) :
    ∃ file, (task.saveSnapshot library outcome table).1 = { task with file } := by
  unfold saveSnapshot
  split_ifs
  · exact ⟨task.file, rfl⟩
  · cases outcome with
    | failed => exact ⟨task.file, rfl⟩
    | unsynced => exact ⟨_, rfl⟩
    | saved => exact ⟨_, rfl⟩

/-- A commit puts the table in place, or ends with an attempt to save the previous one again. -/
theorem commit_cases (library : ToolLibrary D Line) (task : ToolTask D Line) (outcome : ToolOutcome)
    (table : ToolTable D) :
    (∃ file, task.commit library outcome table = ({ task with file, table }, true)) ∨
      ∃ file, task.commit library outcome table =
        ((({ task with file } : ToolTask D Line).saveSnapshot library outcome.restore task.table).1,
          false) := by
  obtain ⟨file, hsaved⟩ := saveSnapshot_other library task outcome.save table
  unfold commit
  rcases hsave : task.saveSnapshot library outcome.save table with ⟨saved, ok⟩
  rw [hsave] at hsaved
  dsimp only at hsaved ⊢
  rw [hsaved]
  cases ok with
  | false => exact .inr ⟨file, rfl⟩
  | true =>
    by_cases hreplace : outcome.replace = false ∨ canonPocketsMax ≤ table.last
    · simp only [replaceTable, if_pos hreplace]
      exact .inr ⟨file, rfl⟩
    · simp only [replaceTable, if_neg hreplace]
      exact .inl ⟨file, rfl⟩

theorem saveSnapshot_saved (hnamed : task.named = true)
    (hlast : table.last < canonPocketsMax) (file : List Line) :
    (({ task with file } : ToolTask D Line).saveSnapshot library .saved table).1.file =
      table.lines library task.random := by
  unfold saveSnapshot
  rw [if_neg]
  rintro (hunnamed | hlarge)
  · cases hnamed.symm.trans hunnamed
  · exact absurd hlast (not_lt.mpr hlarge)

/-- An edit either puts the wanted table in place, or saves the previous one again. -/
theorem edited {outcome : ToolOutcome} {wanted : Option (ToolTable D)}
    (hnamed : wanted ≠ none → task.named = true) (hlast : task.table.last < canonPocketsMax)
    (hwanted : ∀ table, wanted = some table → task.Sound library table ∧ task.OnlyTool toolno table) :
    task.Edited library outcome toolno wanted (task.edit library outcome wanted) := by
  cases wanted with
  | none => exact ⟨nofun, fun _ => ⟨rfl, fun _ => rfl, fun _ hne => absurd rfl hne⟩⟩
  | some table =>
    obtain ⟨hsound, honly⟩ := hwanted table rfl
    dsimp only [edit]
    split_ifs with hsnapshot
    · rcases commit_cases library task outcome table with ⟨file, hdone⟩ | ⟨file, hfailed⟩
      · rw [hdone]
        exact ⟨fun _ => ⟨table, rfl, rfl, hsound, honly⟩, nofun⟩
      · rw [hfailed]
        refine ⟨nofun, fun _ => ⟨?_, nofun, fun _ _ hrestore => ?_⟩⟩
        · obtain ⟨restored, hrestored⟩ :=
            saveSnapshot_other library { task with file } outcome.restore task.table
          rw [hrestored]
        · rw [hrestore]
          exact saveSnapshot_saved (hnamed nofun) hlast file
    · exact ⟨nofun, fun _ => ⟨rfl, nofun, fun htrue => absurd htrue hsnapshot⟩⟩

theorem named_of_updateTable (h : task.updateTable library update ≠ none) : task.named = true := by
  by_contra hnamed
  apply h
  unfold updateTable
  rw [if_neg fun hboth => hnamed hboth.1]

theorem named_of_deleteTable (h : task.deleteTable library toolno ≠ none) : task.named = true := by
  by_contra hnamed
  apply h
  unfold deleteTable
  rw [if_neg fun hboth => hnamed hboth.1]

/-- An update or a deletion of a tool keeps the table sound and changes nothing but the entry of the tool and
its mirror in the spindle; one that fails leaves the table, and the file if it can be saved again. -/
theorem toolEdit_atomic (hsound : task.Sound library task.table) (outcome : ToolOutcome) :
    (∀ update, task.Edited library outcome update.toolno (task.updateTable library update)
        (task.emcToolUpdate library update outcome) ∧
      ((task.emcToolUpdate library update outcome).2 = true →
        ∃ idx, (task.emcToolUpdate library update outcome).1.table.entries idx =
          update.apply ((task.table.findTool task.random update.toolno).elim library.entryInit
            task.table.entries))) ∧
      ∀ toolno, task.Edited library outcome toolno (task.deleteTable library toolno)
          (task.emcToolDelete library toolno outcome) ∧
        ((task.emcToolDelete library toolno outcome).2 = true →
          ∀ idx, ((task.emcToolDelete library toolno outcome).1.table.entries idx).toolno ≠ toolno) := by
  refine ⟨fun update => ?_, fun toolno => ?_⟩
  · have hedited : task.Edited library outcome update.toolno (task.updateTable library update)
        (task.emcToolUpdate library update outcome) := by
      refine edited named_of_updateTable hsound.last fun table htable => ?_
      obtain ⟨found, destination, hplacing, rfl⟩ := updateTable_placing hsound htable
      exact ⟨hplacing.sound_place, hplacing.onlyTool⟩
    refine ⟨hedited, fun hok => ?_⟩
    obtain ⟨table, hwanted, htable, -, -⟩ := hedited.success hok
    obtain ⟨found, destination, hplacing, rfl⟩ := updateTable_placing hsound hwanted
    refine ⟨destination, ?_⟩
    rw [htable, Placing.entries_destination, hplacing.search]
    rfl
  · have hedited : task.Edited library outcome toolno (task.deleteTable library toolno)
        (task.emcToolDelete library toolno outcome) := by
      refine edited named_of_deleteTable hsound.last fun table htable => ?_
      obtain ⟨hkept, honly, -⟩ := deleteTable_spec hsound htable
      exact ⟨hkept, honly⟩
    refine ⟨hedited, fun hok => ?_⟩
    obtain ⟨table, hwanted, htable, -, -⟩ := hedited.success hok
    rw [htable]
    exact (deleteTable_spec hsound hwanted).2.2

/-- Doubles that are all finite, and a file that keeps its records. -/
def intLibrary : ToolLibrary ℤ (CanonTool ℤ) where
  zero := 0
  isFinite := fun _ => true
  isNegative := fun value => decide (value < 0)
  zero_finite := rfl
  zero_notNegative := rfl
  format := fun _ entry => entry
  parse := some
  refusesTaken := false
  reloadToolNumber := fun random table toolno =>
    if random then table
    else
      match (List.range (table.last + 1)).find? fun idx =>
        idx ≠ 0 ∧ (table.entries idx).toolno = toolno with
      | some idx => { table with entries := Function.update table.entries 0 (table.entries idx) }
      | none => table
  reload_random := fun _ _ => rfl
  reload_other := by
    intro random table toolno idx hidx
    split_ifs
    · rfl
    · split
      · exact Function.update_of_ne hidx _ _
      · rfl

/-- Tools 1, 2 and 3 in their pockets, with tool 1 also in the spindle. -/
def threeTools : ToolTask ℤ (CanonTool ℤ) where
  random := false
  table :=
    { entries := fun idx =>
        if idx = 0 then { intLibrary.entryInit with toolno := 1, pocketno := 1 }
        else if idx ≤ 3 then { intLibrary.entryInit with toolno := idx, pocketno := idx }
        else intLibrary.entryInit
      last := 3 }
  file := []
  toolInSpindle := 1

theorem threeTools_sound : threeTools.Sound intLibrary threeTools.table := by
  refine ⟨by decide, by decide, fun idx hidx => ?_, nofun, fun _ _ => ⟨rfl, 1, by decide, rfl⟩⟩
  have hlast : 3 < idx := hidx
  have hempty : threeTools.table.entries idx = intLibrary.entryInit := by
    unfold threeTools
    dsimp only
    rw [if_neg (by omega), if_neg (by omega)]
  rw [hempty]
  exact intLibrary.entryInit_toolno

def setDiameter : ToolUpdate ℤ where
  toolno := 1
  pocket := 0
  fields := 8
  offsetAxes := 0
  wearOffsetAxes := 0
  offset := fun _ => 0
  wearOffset := fun _ => 0
  diameter := 6
  frontangle := 0
  backangle := 0
  orientation := 0
  comment := List.replicate 40 0

theorem toolEdit_atomic_setDiameter : (threeTools.emcToolUpdate intLibrary setDiameter {}).2 = true ∧
      threeTools.Edited intLibrary {} 1 (threeTools.updateTable intLibrary setDiameter)
        (threeTools.emcToolUpdate intLibrary setDiameter {}) ∧
      ∃ idx, ((threeTools.emcToolUpdate intLibrary setDiameter {}).1.table.entries idx).diameter = 6 := by
  have hok : (threeTools.emcToolUpdate intLibrary setDiameter {}).2 = true := by decide +kernel
  obtain ⟨hedited, hentry⟩ := (toolEdit_atomic threeTools_sound {}).1 setDiameter
  obtain ⟨idx, hidx⟩ := hentry hok
  exact ⟨hok, hedited, idx, by rw [hidx]; rfl⟩

end ToolTask

end LinuxcncCtrl
