import LinuxcncCtrl.Spec.WorkspaceLeases
import LinuxcncCtrl.Sanity.ProgramActivation

/-! Every lease has one holder. The counts are exact at the start and stay so, hence every decrement finds the
lease it returns and what is removed had no holder. -/

namespace LinuxcncCtrl

open Lib

variable {W : Type} [DecidableEq W]

theorem foldl_unpinEntry (released : List W) (leases : W → Option ℕ) (w : W) :
    released.foldl unpinEntry leases w = (leases w).map (· - released.count w) := by
  induction released generalizing leases with
  | nil => simp
  | cons v released ih =>
    rw [List.foldl_cons, ih, List.count_cons]
    by_cases hv : v = w
    · subst hv
      cases hv : leases v <;> simp [unpinEntry, hv, Nat.sub_sub, Nat.add_comm]
    · simp [unpinEntry, hv, Ne.symm hv]

theorem releaseRecoveredLeases_eq {recovered : List W} (h : recovered.Nodup) (leases : W → Option ℕ) :
    releaseRecoveredLeases recovered leases = recovered.foldl unpinEntry leases := by
  funext w
  rw [foldl_unpinEntry]
  by_cases hw : w ∈ recovered
  · simp [releaseRecoveredLeases, hw, List.count_eq_one_of_mem h hw]
  · simp [releaseRecoveredLeases, hw, List.count_eq_zero_of_not_mem hw]

namespace ProgramState

variable {s s' : ProgramState W}

/-- What the constructor has made of `start` after some of the links. -/
structure Recovering (start s : ProgramState W) : Prop where
  frame : s = { start with recovered := s.recovered, leases := s.leases }
  leases : ∀ w, (s.leases w).getD 0 = if w ∈ s.recovered then 1 else 0
  nodup : s.recovered.Nodup

variable {start : ProgramState W}

theorem Recovering.recover (h : Recovering start s) (link : ActiveLink W) :
    Recovering start (s.recover link) ∧ s.recovered ⊆ (s.recover link).recovered := by
  cases link with
  | empty => exact ⟨h, List.Subset.refl _⟩
  | workspace w =>
    simp only [ProgramState.recover]
    split_ifs with hnew
    · refine ⟨⟨?_, fun v => ?_, List.nodup_append.mpr ⟨h.nodup, List.nodup_singleton w, ?_⟩⟩,
        List.subset_append_left _ _⟩
      · conv_lhs => rw [h.frame]
      · simp only [pinEntry_getD hnew.1, h.leases v, List.mem_append, List.mem_singleton]
        by_cases hv : v = w
        · subst hv
          simp [hnew.2]
        · simp [hv, Ne.symm hv]
      · intro a ha b hb hab
        rw [hab, List.mem_singleton.mp hb] at ha
        exact hnew.2 ha
    · exact ⟨h, List.Subset.refl _⟩

theorem Recovering.foldl (links : List (ActiveLink W)) (h : Recovering start s) :
    Recovering start (links.foldl ProgramState.recover s) ∧
      s.recovered ⊆ (links.foldl ProgramState.recover s).recovered := by
  induction links generalizing s with
  | nil => exact ⟨h, List.Subset.refl _⟩
  | cons link links ih =>
    obtain ⟨hnext, hsubset⟩ := h.recover link
    obtain ⟨hlast, hsubset'⟩ := ih hnext
    exact ⟨hlast, List.Subset.trans hsubset hsubset'⟩

theorem startup_startup (stored : W → Bool) (active : ActiveLink W) (links : List (ActiveLink W)) :
    (startup stored active links).Startup ∧ (startup stored active links).recovered.Nodup := by
  have hscanned : Recovering (scanned stored active) (scanned stored active) := by
    refine ⟨rfl, fun w => ?_, List.nodup_nil⟩
    cases hw : stored w <;> simp [scanned, hw]
  obtain ⟨hall, -⟩ := hscanned.foldl (active :: links)
  obtain ⟨-, hactive⟩ := (hscanned.recover active).1.foldl links
  have hframe : startup stored active links = _ := hall.frame
  refine ⟨⟨congrArg ProgramState.active hframe, congrArg opening hframe, congrArg requests hframe,
    congrArg queue hframe, congrArg tracked hframe, congrArg resolved hframe, congrArg status hframe,
    fun w => congrArg (fun s => s.previews w) hframe, hall.leases, ?_⟩, hall.nodup⟩
  have hlink : (startup stored active links).link = (scanned stored active).link := by rw [hframe]
  rw [hlink]
  cases active with
  | empty => exact .inl rfl
  | workspace w =>
    cases hstored : stored w with
    | false => exact .inl (by simp [scanned, hstored])
    | true =>
      refine .inr ⟨w, hactive ?_, by simp [scanned, hstored]⟩
      simp [ProgramState.recover, scanned, hstored]

/-- The recovered leases are released all at once and never come back. -/
theorem recovered_step {action : ProgramAction W} (hstep : s.step action = some s') :
    s'.recovered = s.recovered ∨ s'.recovered = [] := by
  cases steps_of_step hstep with
  | @workOpen o rest outcome _ _ =>
    left
    cases outcome <;> rfl
  | @openCompleted o rest _ _ =>
    left
    simp only [openCompleted]
    split_ifs <;> rfl
  | releaseRecoveredLeases _ _ | observed _ _ => exact .inr rfl
  | _ => exact .inl rfl

/-- The pending opens that will return a lease of `w`. -/
def pendingLeases (s : ProgramState W) (w : W) : ℕ :=
  s.requests.countP (OpenRequest.holds w) + s.queuedOpens.countP (OpenCommand.holds w) +
    s.trackedOpens.countP (OpenCommand.holds w) + s.resolved.countP (OpenCommand.holds w)

def holders (s : ProgramState W) (w : W) : ℕ :=
  s.previews w + s.pendingLeases w + (if s.active = some w then 1 else 0) + if w ∈ s.recovered then 1 else 0

theorem held_eq_holders (s : ProgramState W) (w : W) : s.held w = s.holders w := by
  have hactive : (s.active == some w).toNat = if s.active = some w then 1 else 0 := by
    by_cases h : s.active = some w <;> simp [h]
  have hrecovered : (s.recovered.contains w).toNat = if w ∈ s.recovered then 1 else 0 := by
    by_cases h : w ∈ s.recovered <;> simp [h]
  simp only [held, holders, pendingLeases, hactive, hrecovered]
  omega

structure Exact (s : ProgramState W) : Prop where
  accounted : s.Accounted
  nodup : s.recovered.Nodup

variable {action : ProgramAction W}

theorem Exact.step (h : s.Exact) (hstep : s.step action = some s') : s'.Exact := by
  refine ⟨accounted_step h.accounted hstep, ?_⟩
  rcases recovered_step hstep with hsame | hnil
  · exact hsame ▸ h.nodup
  · exact hnil ▸ List.nodup_nil

theorem releaseActive_eq (s : ProgramState W) :
    s.releaseActive.leases = s.active.toList.foldl unpinEntry s.leases := by
  cases hactive : s.active <;> simp [releaseActive, hactive]

theorem count_singleton_toNat (v w : W) : [v].count w = (v == w).toNat := by
  by_cases h : v = w
  · simp [h]
  · simp [h, beq_false_of_ne h]

theorem count_active (active : Option W) (w : W) : active.toList.count w = (active == some w).toNat := by
  cases active with
  | none => rfl
  | some v => exact count_singleton_toNat v w

theorem count_recovered (h : s.Exact) (w : W) :
    s.recovered.count w = (s.recovered.contains w).toNat := by
  by_cases hw : w ∈ s.recovered
  · simp [hw, List.count_eq_one_of_mem h.nodup hw]
  · simp [hw, List.count_eq_zero_of_not_mem hw]

/-- A step that returns leases changes the counts by that and nothing else, and whoever returns one holds it;
in another step no count falls. -/
inductive Returned (s : ProgramState W) (released : List W) (leases : W → Option ℕ) : Prop
  | unpinned (heq : leases = released.foldl unpinEntry s.leases)
      (hheld : ∀ w, released.count w ≤ s.held w)
  | kept (hnil : released = []) (hle : ∀ w, (s.leases w).getD 0 ≤ (leases w).getD 0)

theorem returned_active (s : ProgramState W) : s.Returned s.active.toList s.releaseActive.leases := by
  refine .unpinned (releaseActive_eq s) fun w => ?_
  rw [count_active]
  simp only [held]
  omega

theorem returned_recovered (h : s.Exact) :
    s.Returned s.recovered (releaseRecoveredLeases s.recovered s.leases) := by
  refine .unpinned (releaseRecoveredLeases_eq h.nodup _) fun w => ?_
  rw [count_recovered h]
  simp only [held]
  omega

theorem step_returned (h : s.Exact) (hstep : s.step action = some s') :
    s.Returned (s.unpins action) s'.leases := by
  cases steps_of_step hstep with
  | pinned hr hp hl => exact .kept rfl fun w => by simp [pinEntry_getD hl]
  | startPreview hl => exact .kept rfl fun w => by simp [pinEntry_getD hl]
  | publishRevision hv | erase hv => exact .kept rfl fun w => (update_getD (by simp [hv]) w).ge
  | pruneExpired => exact .kept rfl fun w => (prune_getD _ s.leases w).ge
  | @abandon i r hr hp hm =>
    refine .unpinned (by simp [unpins, hr, destroyLease]) fun w => ?_
    have hcount := countP_eraseIdx (p := OpenRequest.holds w) hr
    have hholds : r.holds w = (r.workspace == w) := by simp [OpenRequest.holds, hp]
    simp only [unpins, hr, Option.toList_some, List.map_cons, List.map_nil, count_singleton_toNat]
    rw [hholds] at hcount
    simp only [held]
    omega
  | @dropLease i o hr hm =>
    cases hrelease : o.release with
    | false => exact .kept (by simp [unpins, hr, hrelease]) fun w => by simp [destroyLease]
    | true =>
      refine .unpinned (by simp [unpins, hr, hrelease, destroyLease]) fun w => ?_
      have hcount := countP_eraseIdx (p := OpenCommand.holds w) hr
      have hholds : o.holds w = (o.release && o.workspace == w) := rfl
      simp only [unpins, hr, hrelease, if_true, count_singleton_toNat]
      rw [hholds, hrelease, Bool.true_and] at hcount
      simp only [held]
      omega
  | releaseRecoveredLeases hi ht => exact returned_recovered h
  | @openCompleted o rest hc ht =>
    simp only [unpins, ht, openCompleted]
    by_cases hactive : s.active = some o.workspace
    · rw [if_pos hactive, if_pos hactive]
      exact .kept rfl fun w => le_rfl
    · rw [if_neg hactive, if_neg hactive]
      exact returned_active s
  | closeCompleted hc ht =>
    simp only [unpins, ht]
    exact returned_active s
  | observed hi ho =>
    simp only [unpins, ho]
    exact returned_recovered h
  | @ignored fileEmpty hopening =>
    refine .kept ?_ fun w => le_rfl
    simp only [unpins, ite_eq_right_iff, and_imp]
    intro hempty hclosed
    simp [hopening hempty] at hclosed
  | dropActive ho => exact returned_active s
  | @endPreview v hp =>
    refine .unpinned rfl fun w => ?_
    simp only [unpins, List.count_singleton, held]
    split_ifs with hv
    · obtain rfl := eq_of_beq hv
      omega
    · exact Nat.zero_le _
  | @workOpen o rest outcome hq hs => cases outcome <;> exact .kept rfl fun w => le_rfl
  | _ => exact .kept rfl fun w => le_rfl

variable {released : List W} {leases : W → Option ℕ}

section

variable (h : s.Returned released leases)

include h

theorem Returned.held (w : W) : released.count w ≤ s.held w := by
  cases h with
  | unpinned heq hheld => exact hheld w
  | kept hnil hle => simp [hnil]

theorem Returned.eq (hne : released ≠ []) : leases = released.foldl unpinEntry s.leases := by
  cases h with
  | unpinned heq hheld => exact heq
  | kept hnil hle => exact absurd hnil hne

theorem Returned.le (hnil : released = []) (w : W) : (s.leases w).getD 0 ≤ (leases w).getD 0 := by
  cases h with
  | unpinned heq hheld => rw [heq, hnil, List.foldl_nil]
  | kept hnil hle => exact hle w

/-- What a step takes out of the store had no lease. -/
theorem Returned.removed_free {w : W} {count : ℕ} (hstored : s.leases w = some count)
    (hremoved : leases w = none) : count = 0 := by
  cases h with
  | unpinned heq hheld =>
    rw [heq, foldl_unpinEntry, hstored] at hremoved
    cases hremoved
  | kept hnil hle =>
    have hkept := hle w
    rw [hstored, hremoved] at hkept
    exact Nat.le_zero.mp hkept

end

theorem exact_run {stored : W → Bool} {active : ActiveLink W} {links : List (ActiveLink W)}
    {actions : List (ProgramAction W)} (hrun : Run step (startup stored active links) actions s) :
    s.Exact := by
  apply hrun.invariant
  · obtain ⟨hstartup, hnodup⟩ := startup_startup stored active links
    exact ⟨accounted_startup hstartup, hnodup⟩
  · exact fun s action s' hstep h => h.step hstep

theorem leases_exact {stored : W → Bool} {active : ActiveLink W} {links : List (ActiveLink W)}
    {actions : List (ProgramAction W)} (hrun : Run step (startup stored active links) actions s) :
    (∀ w, (s.leases w).getD 0 = s.holders w) ∧
    ∀ action s', s.step action = some s' → (∀ w, (s.unpins action).count w ≤ (s.leases w).getD 0) ∧
      (s.unpins action = [] → ∀ w, (s.leases w).getD 0 ≤ (s'.leases w).getD 0) ∧
      (s.unpins action ≠ [] → s'.leases = (s.unpins action).foldl unpinEntry s.leases ∧
        ∀ w, s'.holders w + (s.unpins action).count w = s.holders w) ∧
      ∀ w count, s.leases w = some count → s'.leases w = none → count = 0 ∧ s.holders w = 0 := by
  have h := exact_run hrun
  have hexact : ∀ {t : ProgramState W}, t.Exact → ∀ w, (t.leases w).getD 0 = t.holders w :=
    fun ht w => (ht.accounted.exact w).trans (held_eq_holders _ w)
  refine ⟨hexact h, fun action s' hstep => ?_⟩
  have hreturned := step_returned h hstep
  have hle : ∀ w, (s.unpins action).count w ≤ (s.leases w).getD 0 := fun w =>
    (hreturned.held w).trans (h.accounted.exact w).ge
  refine ⟨hle, hreturned.le, fun hne => ⟨hreturned.eq hne, fun w => ?_⟩, fun w count hstored hremoved => ?_⟩
  · have hleases := congrFun (hreturned.eq hne) w
    rw [foldl_unpinEntry] at hleases
    have hafter := hexact (h.step hstep) w
    have hbefore := hexact h w
    have hcount := hle w
    rw [hleases] at hafter
    cases hstored : s.leases w with
    | none =>
      rw [hstored] at hafter hbefore hcount
      simp only [Option.map_none, Option.getD_none] at hafter hbefore hcount
      omega
    | some count =>
      rw [hstored] at hafter hbefore hcount
      simp only [Option.map_some, Option.getD_some] at hafter hbefore hcount
      omega
  · have hfree := hreturned.removed_free hstored hremoved
    refine ⟨hfree, ?_⟩
    rw [← hexact h w, hstored, hfree, Option.getD_some]

/-- The active link and a staging link of the workspace that was open, and an open of another one that is
completed while the old one is pruned. -/
def openOther : List (ProgramAction ℕ) :=
  [.startPreview 1, .admitOpen 2, .pin 0 true, .submitOpen 0, .prepare, .worker .tracked, .releaseRecoveredLeases,
    .endPreview 1, .pruneExpired fun _ => true, .resolve true]

theorem leases_exact_openOther :
    let s : ProgramState ℕ := startup (fun w => w ≤ 2) (.workspace 1) [.workspace 1, .empty]
    s.leases 1 = some 1 ∧ ((exec step s openOther).getD s).leases 1 = none ∧
      (((exec step s openOther).getD s).leases 2).getD 0 = ((exec step s openOther).getD s).holders 2 := by
  intro s
  have hrun : Run step s openOther ((exec step s openOther).getD s) := .getD_exec (by decide +kernel)
  exact ⟨by decide +kernel, by decide +kernel, (leases_exact hrun).1 2⟩

end ProgramState

end LinuxcncCtrl
