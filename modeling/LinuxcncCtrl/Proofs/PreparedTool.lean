import LinuxcncCtrl.Proofs.ToolTable

/-! Whether the index that is prepared for the next tool change keeps its tool while the tool table is edited
and reloaded. -/

namespace LinuxcncCtrl

open Lib

variable {D Line : Type} {library : ToolLibrary D Line}

namespace ToolTask

variable {task task' : ToolTask D Line} {prepared : ℕ} {toolno : ℤ}

structure Prepared (task : ToolTask D Line) (prepared : ℕ) (toolno : ℤ) : Prop where
  index : task.pocketPrepped = prepared
  entry : (task.table.entries prepared).toolno = toolno

/-- An edit changes the table, if at all, to the wanted one, and nothing else but the file. -/
theorem edit_cases (library : ToolLibrary D Line) (task : ToolTask D Line) (outcome : ToolOutcome)
    (wanted : Option (ToolTable D)) :
    (task.edit library outcome wanted).1.pocketPrepped = task.pocketPrepped ∧
      ((task.edit library outcome wanted).1.table = task.table ∨
        wanted = some (task.edit library outcome wanted).1.table) := by
  cases wanted with
  | none => exact ⟨rfl, .inl rfl⟩
  | some table =>
    dsimp only [edit]
    split_ifs
    · rcases commit_cases library task outcome table with ⟨file, hdone⟩ | ⟨file, hfailed⟩
      · rw [hdone]
        exact ⟨rfl, .inr rfl⟩
      · obtain ⟨restored, hrestored⟩ :=
          saveSnapshot_other library { task with file } outcome.restore task.table
        rw [hfailed, hrestored]
        exact ⟨rfl, .inl rfl⟩
    · exact ⟨rfl, .inl rfl⟩

variable {table staged : ToolTable D} {next : ℕ} {lines : List Line} {idx : ℕ} {file : ToolFile Line}
  {replace : Bool}

theorem Prepared.updateTable (h : task.Prepared prepared toolno) (htool : 0 ≤ toolno)
    {update : ToolUpdate D} (hkeeps : task.pocketPrepped ≤ task.table.last ∧
      (task.random = false → task.pocketPrepped = 0 → task.toolInSpindle = toolno))
    (hupdate : task.updateTable library update = some table) :
    (table.entries prepared).toolno = toolno := by
  obtain ⟨-, hupdate⟩ := Option.ite_none_right_eq_some.mp hupdate
  obtain ⟨destination, hdestination, rfl⟩ := Option.map_eq_some_iff.mp hupdate
  have htarget := destination_target hdestination
  obtain ⟨hlast, hspindle⟩ := hkeeps
  rw [h.index] at hlast hspindle
  rw [place_entries]
  split_ifs with hnew hfound
  · rcases hnew with ⟨⟨hrandom, hmirror⟩, hzero⟩ | rfl
    · exact hmirror.symm.trans (hspindle hrandom (congrArg _ hzero))
    · rcases htarget.free with hfound | hempty | hbeyond
      · exact (ToolTable.findTool_some hfound).1.symm.trans h.entry
      · rw [h.entry] at hempty
        exact absurd htool (not_le.mpr hempty)
      · exact absurd (Int.ofNat_le.mp hlast) (not_le.mpr hbeyond)
  · -- the prepared tool would have been moved
    have hne : prepared ≠ destination := fun heq => hnew (.inr heq)
    exact absurd (.inr (.inr (.inl h.index.symm))) (htarget.stays prepared hfound hne)
  · exact h.entry

theorem Prepared.deleteTable (h : task.Prepared prepared toolno) {deleted : ℤ}
    (hdelete : task.deleteTable library deleted = some table) :
    (table.entries prepared).toolno = toolno := by
  obtain ⟨-, hdelete⟩ := Option.ite_none_right_eq_some.mp hdelete
  split at hdelete
  · cases hdelete
  · next idx _ =>
    obtain ⟨hrefused, hdelete⟩ := Option.ite_none_left_eq_some.mp hdelete
    obtain rfl := (Option.some.inj hdelete).symm
    have hne : prepared ≠ idx := by
      rintro rfl
      exact hrefused (.inr (.inl h.index.symm))
    dsimp only
    rw [Function.update_of_ne hne]
    exact h.entry

/-- A line is stored at its index; only index 0 may change besides. -/
theorem readEntry_some {random : Bool} {line : Line}
    (h : readEntry library random staged next line = some table) :
    ∃ entry, library.parse line = some entry ∧ (random = true → 0 ≤ entry.pocketno) ∧
      ∀ idx, random = true ∨ idx ≠ 0 → table.entries idx =
        if idx = lineIndex random entry next then entry else staged.entries idx := by
  unfold readEntry at h
  split at h
  · cases h
  · next entry hparse =>
    obtain ⟨hrange, h⟩ := Option.ite_none_left_eq_some.mp h
    obtain ⟨-, ⟨⟩⟩ := Option.ite_none_left_eq_some.mp h
    refine ⟨entry, hparse, fun hrandom => ?_, fun idx hcounts => ?_⟩
    · by_contra hnegative
      exact hrange (.inr ⟨hrandom, not_le.mp hnegative⟩)
    · have hstored : Function.update staged.entries (lineIndex random entry next) entry idx =
          if idx = lineIndex random entry next then entry else staged.entries idx :=
        Function.update_apply ..
      rw [← hstored]
      split_ifs with hspindle
      · rcases hcounts with hrandom | hne
        · cases hrandom.symm.trans hspindle.1
        · exact Function.update_of_ne hne _ _
      · rfl

/-- In a changer that is not random the lines go to consecutive indices. -/
theorem readEntries_consecutive
    (h : readEntries library false staged next lines = some table) (hidx : idx ≠ 0) :
    (idx < next → table.entries idx = staged.entries idx) ∧
      (next ≤ idx → ∀ entry, (lines.filterMap library.parse)[idx - next]? = some entry →
        table.entries idx = entry) := by
  induction lines generalizing staged next with
  | nil =>
    cases h
    exact ⟨fun _ => rfl, fun _ entry hentry => nomatch hentry⟩
  | cons line lines ih =>
    obtain ⟨stored, hline, hrest⟩ := Option.bind_eq_some_iff.mp h
    obtain ⟨entry, hparse, -, hentries⟩ := readEntry_some hline
    have hnext : lineIndex false entry next = next := rfl
    have hstored := hentries idx (.inr hidx)
    rw [hnext] at hstored
    obtain ⟨hbefore, hafter⟩ := ih hrest
    refine ⟨fun hlt => ?_, fun hle found hfound => ?_⟩
    · rw [hbefore (Nat.lt_succ_of_lt hlt), hstored, if_neg hlt.ne]
    · rw [List.filterMap_cons_some hparse] at hfound
      rcases Nat.eq_or_lt_of_le hle with heq | hlt
      · rw [← heq, Nat.sub_self] at hfound
        rw [hbefore (heq ▸ Nat.lt_succ_self next), hstored, if_pos heq.symm]
        exact Option.some.inj hfound
      · have hpred : idx - next = (idx - (next + 1)) + 1 := by omega
        rw [hpred, List.getElem?_cons_succ] at hfound
        exact hafter hlt found hfound

/-- In a random changer the lines of a pocket decide what is at its index. -/
theorem readEntries_random (h : readEntries library true staged next lines = some table)
    (hown : ∀ entry ∈ lines.filterMap library.parse, entry.pocketno = idx → entry.toolno = toolno)
    (hsome : (staged.entries idx).toolno = toolno ∨
      ∃ entry ∈ lines.filterMap library.parse, entry.pocketno = idx) :
    (table.entries idx).toolno = toolno := by
  induction lines generalizing staged next with
  | nil =>
    cases h
    exact hsome.resolve_right fun ⟨_, hmem, _⟩ => nomatch hmem
  | cons line lines ih =>
    obtain ⟨stored, hline, hrest⟩ := Option.bind_eq_some_iff.mp h
    obtain ⟨entry, hparse, hnonneg, hentries⟩ := readEntry_some hline
    have hstored := hentries idx (.inl rfl)
    rw [List.filterMap_cons_some hparse] at hown hsome
    have hindex : idx = lineIndex true entry next ↔ entry.pocketno = idx := by
      have hpocket := hnonneg rfl
      unfold lineIndex
      rw [if_pos rfl]
      omega
    refine ih hrest (fun other hother => hown other (List.mem_cons_of_mem _ hother)) ?_
    by_cases hpocket : entry.pocketno = idx
    · rw [hstored, if_pos (hindex.mpr hpocket)]
      exact .inl (hown entry List.mem_cons_self hpocket)
    · rw [hstored, if_neg (fun heq => hpocket (hindex.mp heq))]
      refine hsome.imp_right ?_
      rintro ⟨other, hother, hidx⟩
      rcases List.mem_cons.mp hother with rfl | hmem
      · exact absurd hidx hpocket
      · exact ⟨other, hmem, hidx⟩

section

variable (h : task.Prepared prepared toolno)

include h

theorem Prepared.load (hkeeps : task.KeepsPrepared library toolno (.load file replace)) {loaded : ToolTable D}
    (hload : task.loadSnapshot library file = some loaded) :
    ((library.reloadToolNumber task.random loaded task.toolInSpindle).entries prepared).toolno = toolno := by
  have hread : readEntries library task.random ⟨fun _ => library.entryInit, 0⟩ 1
      (task.fileLines file) = some loaded := by
    cases file with
    | configured => exact (Option.ite_none_right_eq_some.mp hload).2
    | other lines => exact hload
    | unreadable => cases hload
  unfold KeepsPrepared at hkeeps
  dsimp only at hkeeps
  rw [h.index] at hkeeps
  cases hrandom : task.random with
  | true =>
    rw [hrandom] at hread
    rw [hrandom, if_pos rfl] at hkeeps
    rw [library.reload_random]
    exact readEntries_random hread hkeeps.2 (.inr hkeeps.1)
  | false =>
    rw [hrandom] at hread
    rw [hrandom, if_neg (by decide)] at hkeeps
    obtain ⟨hpos, entry, hentry, htool⟩ := hkeeps
    have hne : prepared ≠ 0 := by omega
    rw [library.reload_other _ _ _ _ hne, (readEntries_consecutive hread hne).2 (by omega) entry hentry]
    exact htool

theorem Prepared.emcToolLoadToolTable (hkeeps : task.KeepsPrepared library toolno (.load file replace)) :
    (task.emcToolLoadToolTable library file replace).1.Prepared prepared toolno := by
  unfold ToolTask.emcToolLoadToolTable
  split_ifs
  · exact h
  · split
    · exact h
    · next loaded hload =>
      split_ifs
      · exact h
      · by_cases hreplace : replace = false ∨ canonPocketsMax ≤ loaded.last
        · simp only [replaceTable, if_pos hreplace]
          exact h
        · simp only [replaceTable, if_neg hreplace]
          exact ⟨h.index, h.load hkeeps hload⟩

theorem Prepared.edit (outcome : ToolOutcome) {wanted : Option (ToolTable D)}
    (hwanted : ∀ table, wanted = some table → (table.entries prepared).toolno = toolno) :
    (task.edit library outcome wanted).1.Prepared prepared toolno := by
  obtain ⟨hindex, htable⟩ := edit_cases library task outcome wanted
  refine ⟨hindex.trans h.index, ?_⟩
  rcases htable with hsame | hnew
  · rw [hsame]
    exact h.entry
  · exact hwanted _ hnew

theorem Prepared.step (htool : 0 ≤ toolno) {request : ToolRequest D Line}
    (hkeeps : task.KeepsPrepared library toolno request) (hstep : task.step library request = some task') :
    task'.Prepared prepared toolno := by
  cases request with
  | update update outcome =>
    cases hstep
    exact h.edit outcome fun table htable => h.updateTable htool hkeeps htable
  | delete deleted outcome =>
    cases hstep
    exact h.edit outcome fun table htable => h.deleteTable htable
  | load file replace =>
    cases hstep
    exact h.emcToolLoadToolTable hkeeps

end

/-- The prepared index keeps its tool through all requests that, going by the table and the file, leave that
tool where it is. -/
theorem prepared_tool_kept (hprepared : task.pocketPrepped = prepared) (htool : 0 ≤ toolno)
    (hentry : (task.table.entries prepared).toolno = toolno) {requests : List (ToolRequest D Line)}
    (hrun : RunWhere (fun task => task.step library)
      (fun task request => task.KeepsPrepared library toolno request) task requests task') :
    task'.pocketPrepped = prepared ∧ (task'.table.entries prepared).toolno = toolno := by
  have hkept : task'.Prepared prepared toolno := by
    apply hrun.invariant ⟨hprepared, hentry⟩
    intro before request after hkeeps hstep hbefore
    exact hbefore.step htool hkeeps hstep
  exact ⟨hkept.index, hkept.entry⟩

/-- Tool 2 is prepared, and the file is that of the table. -/
def secondPrepared : ToolTask ℤ (CanonTool ℤ) :=
  { threeTools with
    pocketPrepped := 2
    toolInSpindle := 0
    file := threeTools.table.lines intLibrary false }

/-- Tool 3 is deleted, and the file loaded again. -/
def deleteThird : List (ToolRequest ℤ (CanonTool ℤ)) := [.delete 3 {}, .load .configured true]

def thirdDeleted : ToolTask ℤ (CanonTool ℤ) :=
  (exec (fun task => task.step intLibrary) secondPrepared deleteThird).getD secondPrepared

theorem prepared_tool_kept_thirdDeleted : thirdDeleted.table.last = 2 ∧ thirdDeleted.pocketPrepped = 2 ∧
      (thirdDeleted.table.entries 2).toolno = 2 := by
  have hrun : RunWhere (fun task => task.step intLibrary)
      (fun task request => task.KeepsPrepared intLibrary 2 request) secondPrepared deleteThird
      thirdDeleted := by
    refine .cons trivial rfl (.cons ?_ rfl .nil)
    exact ⟨by decide, _, rfl, rfl⟩
  exact ⟨by decide +kernel, prepared_tool_kept rfl (by decide) rfl hrun⟩

/-- Tool 1 is deleted, and the file loaded again: the tools behind it move up. -/
def deleteFirst : List (ToolRequest ℤ (CanonTool ℤ)) := [.delete 1 {}, .load .configured true]

def firstDeleted : ToolTask ℤ (CanonTool ℤ) :=
  (exec (fun task => task.step intLibrary) secondPrepared deleteFirst).getD secondPrepared

theorem prepared_tool_exchanged : (secondPrepared.table.entries 2).toolno = 2 ∧
      Run (fun task => task.step intLibrary) secondPrepared deleteFirst firstDeleted ∧
      (secondPrepared.emcToolDelete intLibrary 1 {}).2 = true ∧
      ((secondPrepared.emcToolDelete intLibrary 1 {}).1.emcToolLoadToolTable intLibrary .configured
        true).2 = true ∧
      firstDeleted.pocketPrepped = 2 ∧ (firstDeleted.table.entries 2).toolno = 3 :=
  ⟨rfl, .getD_exec rfl, by decide +kernel, by decide +kernel, by decide +kernel, by decide +kernel⟩

end ToolTask

end LinuxcncCtrl
