import LinuxcncCtrl.Spec.WorkspaceStore

/-! The quotas of the workspace store. Leases do not touch what is counted, removals take out of the table what
they take off the disk, and a publish adds one entry that its checks have made room for. -/

namespace LinuxcncCtrl

open Lib

namespace WorkspaceStore

variable {limits : WorkspaceLimits} {s s' : WorkspaceStore}

theorem find_isSome (s : WorkspaceStore) (id : List Char) :
    (s.find id).isSome = true ↔ id ∈ s.workspaces.map Prod.fst := by
  simp [find, List.find?_isSome]

theorem total_fits (h : s.Within limits) {bytes : UInt64} (hbytes : ¬ limits.maxTotalBytes < bytes)
    (hroom : ¬ limits.maxTotalBytes - bytes < s.totalSizeLocked) :
    exactSum (fun entry : List Char × Workspace => entry.2.bytes) s.workspaces + bytes.toNat ≤
      limits.maxTotalBytes.toNat := by
  have hle : bytes.toNat ≤ limits.maxTotalBytes.toNat := UInt64.le_iff_toNat_le.mp (UInt64.not_lt.mp hbytes)
  have hsub := UInt64.toNat_sub_of_le _ _ (UInt64.not_lt.mp hbytes)
  have htotal := toNat_wordSum (fun entry : List Char × Workspace => entry.2.bytes) s.workspaces
    (h.total.trans_lt limits.maxTotalBytes.toNat_lt)
  have hfits := UInt64.le_iff_toNat_le.mp (UInt64.not_lt.mp hroom)
  rw [totalSizeLocked, htotal, hsub] at hfits
  omega

/-- The ways a publish can go: it fails and changes nothing, or adds a workspace within the quotas. -/
inductive Published (limits : WorkspaceLimits) (s : WorkspaceStore) (request : PublishRequest) :
    WorkspacePublishStatus → Option (List Char) → WorkspaceStore → Prop
  | refused (status : WorkspacePublishStatus) (h : status ≠ .ok) : Published limits s request status none s
  | added (id : List Char) (workspace : Workspace) (hbytes : workspace.bytes = request.bytes)
      (hentries : workspace.entries = request.entries) (hsize : request.bytes ≤ limits.maxWorkspaceBytes)
      (hcount : request.entries ≤ limits.maxEntriesPerWorkspace)
      (hworkspaces : s.workspaces.length < limits.maxWorkspaces.toNat)
      (htotal : ¬ limits.maxTotalBytes < request.bytes)
      (hroom : ¬ limits.maxTotalBytes - request.bytes < s.totalSizeLocked) :
      Published limits s request .ok (some id)
        { workspaces := s.emplace id workspace, directories := Function.update s.directories id true }

theorem publishRevision_published {request : PublishRequest} {status : WorkspacePublishStatus}
    {id : Option (List Char)} (h : s.publishRevision limits request = some (status, id, s')) :
    Published limits s request status id s' := by
  unfold publishRevision at h
  split at h
  · cases h
    exact .refused _ (by decide)
  · split at h
    · cases h
      exact .refused _ (by decide)
    · next hvalid =>
      split at h
      · cases h
        exact .refused _ (by decide)
      · next hfits =>
        split at h
        · cases h
        · next drawn hdrawn =>
          split at h
          · cases h
            exact .refused _ (by decide)
          · split at h
            · cases h
              exact .refused _ (by decide)
            · cases h
              exact .refused _ (by decide)
            · cases h
              simp only [not_or] at hvalid hfits
              exact .added drawn _ rfl rfl (UInt64.not_lt.mp hvalid.2.1) (UInt64.not_lt.mp hvalid.2.2)
                (Nat.lt_of_not_le hfits.1) hfits.2.1 hfits.2.2

theorem Within.added (h : s.Within limits) {id : List Char} {workspace : Workspace}
    (hsize : workspace.bytes ≤ limits.maxWorkspaceBytes)
    (hcount : workspace.entries ≤ limits.maxEntriesPerWorkspace)
    (hworkspaces : s.workspaces.length < limits.maxWorkspaces.toNat)
    (htotal : exactSum (fun entry : List Char × Workspace => entry.2.bytes) s.workspaces +
      workspace.bytes.toNat ≤ limits.maxTotalBytes.toNat) :
    Within limits
      { workspaces := s.emplace id workspace, directories := Function.update s.directories id true } := by
  by_cases hthere : (s.find id).isSome = true
  · have hmem := (find_isSome s id).mp hthere
    have hupdate : Function.update s.directories id true = s.directories := by
      rw [Function.update_eq_self_iff]
      exact ((h.onDisk id).mpr hmem).symm
    rw [emplace, if_pos hthere, hupdate]
    exact h
  · have hmem : id ∉ s.workspaces.map Prod.fst := fun hmem => hthere ((find_isSome s id).mpr hmem)
    rw [emplace, if_neg hthere]
    refine ⟨?_, ?_, ?_, fun entry hentry => ?_, fun other => ?_⟩
    · rw [List.map_append]
      refine List.nodup_append.mpr ⟨h.nodup, List.nodup_singleton _, fun a ha b hb hab => hmem ?_⟩
      rw [hab, List.mem_singleton.mp hb] at ha
      exact ha
    · simpa using hworkspaces
    · simpa [exactSum] using htotal
    · rcases List.mem_append.mp hentry with hold | hnew
      · exact h.each entry hold
      · obtain rfl := List.mem_singleton.mp hnew
        exact ⟨hsize, hcount⟩
    · by_cases hother : other = id
      · simp [hother]
      · simpa [hother] using h.onDisk other

/-- A removal takes the same workspaces out of the table and off the disk. -/
theorem Within.filtered (h : s.Within limits) (keep : List Char × Workspace → Bool)
    {directories : List Char → Bool}
    (hdirectories : ∀ id, directories id = true ↔
      s.directories id = true ∧ ∀ entry ∈ s.workspaces, entry.1 = id → keep entry = true) :
    Within limits { workspaces := s.workspaces.filter keep, directories } := by
  refine ⟨h.nodup.sublist (List.filter_sublist.map _), (List.length_filter_le _ _).trans h.count,
    (exactSum_sublist List.filter_sublist _).trans h.total,
    fun entry hentry => h.each entry (List.mem_of_mem_filter hentry), fun id => ?_⟩
  rw [hdirectories, h.onDisk]
  constructor
  · rintro ⟨hmem, hkeep⟩
    obtain ⟨entry, hentry, rfl⟩ := List.mem_map.mp hmem
    exact List.mem_map.mpr ⟨entry, List.mem_filter.mpr ⟨hentry, hkeep entry hentry rfl⟩, rfl⟩
  · intro hmem
    obtain ⟨entry, hentry, rfl⟩ := List.mem_map.mp hmem
    obtain ⟨hentry, hkeep⟩ := List.mem_filter.mp hentry
    refine ⟨List.mem_map_of_mem hentry, fun other hother hsame => ?_⟩
    rw [List.inj_on_of_nodup_map h.nodup hother hentry hsame]
    exact hkeep

theorem Within.erase (h : s.Within limits) (id : List Char) (removed : Bool) :
    (s.erase id removed).2.Within limits := by
  have hgone : Within limits
      { workspaces := s.workspaces.filter fun entry => entry.1 ≠ id
        directories := Function.update s.directories id false } := by
    refine h.filtered _ fun other => ?_
    by_cases hother : other = id
    · subst hother
      simp [h.onDisk other]
    · rw [Function.update_of_ne hother]
      refine ⟨fun hdisk => ⟨hdisk, fun entry _ hsame => ?_⟩, And.left⟩
      simpa [hsame] using hother
  unfold WorkspaceStore.erase
  split
  · exact h
  · split
    · exact h
    · split
      · exact h
      · split
        · exact h
        · exact hgone

/-- The loop keeps what it does not remove, in the table and on disk. -/
theorem prune_eq (now : ℕ) (removed : List Char → Bool) (workspaces : List (List Char × Workspace))
    (directories : List Char → Bool) :
    (prune now removed workspaces directories).1 = workspaces.filter (fun entry => !gone now removed entry) ∧
      ∀ id, (prune now removed workspaces directories).2.1 id = true ↔
        directories id = true ∧ ∀ entry ∈ workspaces, entry.1 = id → (!gone now removed entry) = true := by
  induction workspaces generalizing directories with
  | nil => simp [prune]
  | cons entry rest ih =>
    cases hgone : gone now removed entry with
    | true =>
      obtain ⟨hkept, hdisk⟩ := ih (Function.update directories entry.1 false)
      simp only [prune, hgone, if_true, hkept, hdisk]
      refine ⟨by simp [hgone], fun id => ?_⟩
      by_cases hid : id = entry.1
      · subst hid
        simp [hgone]
      · simp [hid, Ne.symm hid]
    | false =>
      obtain ⟨hkept, hdisk⟩ := ih directories
      simp only [prune, hgone, Bool.false_eq_true, if_false, hkept, hdisk]
      exact ⟨by simp [hgone], fun id => by simp [hgone]⟩

theorem Within.pruneExpired (h : s.Within limits) (now : ℕ) (removed : List Char → Bool) :
    (s.pruneExpired now removed).2.Within limits := by
  obtain ⟨hkept, hdisk⟩ := prune_eq now removed s.workspaces s.directories
  have hfiltered := h.filtered _ hdisk
  rw [← hkept] at hfiltered
  exact hfiltered

theorem Within.setLeases (h : s.Within limits) (id : List Char) (leases : ℕ → ℕ) :
    (s.setLeases id leases).Within limits := by
  have hkeys : (s.setLeases id leases).workspaces.map Prod.fst = s.workspaces.map Prod.fst := by
    rw [WorkspaceStore.setLeases, List.map_map]
    apply List.map_congr_left
    intro entry _
    simp only [Function.comp_apply]
    split_ifs <;> rfl
  have hsum : exactSum (fun entry : List Char × Workspace => entry.2.bytes) (s.setLeases id leases).workspaces =
      exactSum (fun entry : List Char × Workspace => entry.2.bytes) s.workspaces := by
    rw [exactSum, exactSum, WorkspaceStore.setLeases, List.map_map]
    congr 1
    apply List.map_congr_left
    intro entry _
    simp only [Function.comp_apply]
    split_ifs <;> rfl
  refine ⟨hkeys ▸ h.nodup, ?_, hsum ▸ h.total, fun entry hentry => ?_, fun other => ?_⟩
  · simpa [WorkspaceStore.setLeases] using h.count
  · obtain ⟨before, hbefore, rfl⟩ := List.mem_map.mp hentry
    split_ifs
    · exact h.each before hbefore
    · exact h.each before hbefore
  · rw [hkeys]
    exact h.onDisk other

theorem Within.step {action : WorkspaceAction} (h : s.Within limits) (hstep : s.step limits action = some s') :
    s'.Within limits := by
  cases action with
  | publishRevision request =>
    obtain ⟨⟨status, id, store⟩, hpublished, rfl⟩ := Option.map_eq_some_iff.mp hstep
    cases publishRevision_published hpublished with
    | refused _ _ => exact h
    | added id workspace hbytes hentries hsize hcount hworkspaces htotal hroom =>
      refine h.added (hbytes ▸ hsize) (hentries ▸ hcount) hworkspaces ?_
      rw [hbytes]
      exact total_fits h htotal hroom
  | erase id removed =>
    cases hstep
    exact h.erase id removed
  | pruneExpired now removed =>
    cases hstep
    exact h.pruneExpired now removed
  | pinEntry id now validPath safe =>
    cases hstep
    unfold WorkspaceStore.pinEntry
    split
    · exact h
    · split
      · exact h
      · split
        · exact h
        · exact h.setLeases id (· + 1)
  | unpinEntry id =>
    cases hstep
    unfold WorkspaceStore.unpinEntry
    split
    · exact h
    · split
      · exact h
      · exact h.setLeases id (· - 1)

theorem quotas_hold {s₀ : WorkspaceStore} {actions : List WorkspaceAction} (h₀ : s₀.Within limits)
    (hrun : Run (step limits) s₀ actions s) :
    s.Within limits ∧
    (∀ k, (wordSum (fun entry : List Char × Workspace => entry.2.bytes) (s.workspaces.take k)).toNat =
      exactSum (fun entry : List Char × Workspace => entry.2.bytes) (s.workspaces.take k)) ∧
    (∀ bytes, ¬ limits.maxTotalBytes < bytes →
      (limits.maxTotalBytes - bytes).toNat = limits.maxTotalBytes.toNat - bytes.toNat ∧
        bytes.toNat ≤ limits.maxTotalBytes.toNat) ∧
    ∀ request status id s', s.publishRevision limits request = some (status, id, s') → status ≠ .ok → s' = s := by
  have h : s.Within limits := by
    apply hrun.invariant
    · exact h₀
    · exact fun s action s' hstep h => h.step hstep
  refine ⟨h, fun k => ?_, fun bytes hbytes => ⟨?_, ?_⟩, fun request status id s' hpublish hfailed => ?_⟩
  · apply toNat_wordSum
    exact ((exactSum_take_le _ _ k).trans h.total).trans_lt limits.maxTotalBytes.toNat_lt
  · exact UInt64.toNat_sub_of_le _ _ (UInt64.not_lt.mp hbytes)
  · exact UInt64.le_iff_toNat_le.mp (UInt64.not_lt.mp hbytes)
  · cases publishRevision_published hpublish with
    | refused _ _ => rfl
    | added => exact absurd rfl hfailed

def smallLimits : WorkspaceLimits :=
  { maxWorkspaceBytes := 10, maxTotalBytes := 15, ttl := 100, maxWorkspaces := 2, maxEntriesPerWorkspace := 3 }

def upload (bytes : UInt64) (digit : Fin 16) (renamed : RenameOutcome) : WorkspaceAction :=
  .publishRevision
    { wellPlaced := true, isDirectory := true, bytes, entries := 1, draws := [(fun _ => digit, true)], now := 0,
      stamped := true, renamed }

/-- The second upload exceeds the total, the third fits, the fifth finds two workspaces; the first cannot be
erased while it is pinned and its directory cannot be removed once. -/
def uploads : List WorkspaceAction :=
  [upload 10 1 .done, upload 10 2 .done, upload 5 3 .noSpace, upload 5 3 .done, upload 0 4 .done,
    .pinEntry (opaqueWorkspaceId fun _ => 1) 50 true true, .erase (opaqueWorkspaceId fun _ => 1) true,
    .unpinEntry (opaqueWorkspaceId fun _ => 1), .erase (opaqueWorkspaceId fun _ => 1) false,
    .pruneExpired 100 fun id => id = opaqueWorkspaceId fun _ => 1]

theorem quotas_hold_uploads :
    ((exec (step smallLimits) {} uploads).getD {}).workspaces.map Prod.fst = [opaqueWorkspaceId fun _ => 3] ∧
      ((exec (step smallLimits) {} uploads).getD {}).Within smallLimits := by
  have hempty : Within smallLimits {} := by
    refine ⟨List.nodup_nil, Nat.zero_le _, Nat.zero_le _, nofun, fun id => ?_⟩
    simp
  have hrun : Run (step smallLimits) {} uploads ((exec (step smallLimits) {} uploads).getD {}) :=
    .getD_exec (by decide +kernel)
  exact ⟨by decide +kernel, (quotas_hold hempty hrun).1⟩

end WorkspaceStore

end LinuxcncCtrl
