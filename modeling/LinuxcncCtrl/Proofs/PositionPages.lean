import LinuxcncCtrl.Proofs.PositionHistory

/-! Bounded reads of the position history. A batch hands back the sequence of the next append, also when it was
cut short, so the reader takes the first page for all there is. A page that holds the whole history is read to
its end. -/

namespace LinuxcncCtrl

open Lib

variable {F : Type} [IntCast F]

namespace PositionHistory

variable {h : PositionHistory F} {cursor generation pageSize : ℕ} {c : PositionConsumer F}

theorem since_cursor (h : PositionHistory F) (cursor pageSize generation : ℕ) :
    (h.since cursor pageSize generation).nextSequence = h.nextSequence ∧
      (h.since cursor pageSize generation).generation = h.generation := by
  unfold since
  cases h.entries with
  | nil => exact ⟨rfl, rfl⟩
  | cons oldest rest => exact ⟨rfl, rfl⟩

/-- A page holds the oldest entries, for a reader that has seen none of them. -/
theorem since_page (hpage : 1 ≤ pageSize)
    (hstart : generation ≠ 0 ∧ generation ≠ h.generation ∨ ∀ e ∈ h.entries, cursor ≤ e.sequence) :
    (h.since cursor pageSize generation).packed = packPoints (h.entries.take pageSize) := by
  cases hentries : h.entries with
  | nil =>
    unfold since
    simp only [hentries, List.take_nil]
    rfl
  | cons oldest rest =>
    have hpositive : pageSize ≠ 0 := by omega
    -- a reset starts at the oldest entry; without one no entry is below the cursor
    have hfirst : (if (decide (generation ≠ 0 ∧ generation ≠ h.generation) ||
          decide (cursor < oldest.sequence)) = true then oldest :: rest
        else (oldest :: rest).dropWhile fun e => decide (e.sequence < cursor)) = oldest :: rest := by
      split_ifs with hreset
      · rfl
      · apply List.dropWhile_eq_self_iff.mpr
        intro hlength hlt
        rw [Bool.or_eq_true, not_or, decide_eq_true_eq, decide_eq_true_eq] at hreset
        rcases hstart with hstale | hseen
        · exact hreset.1 hstale
        · have hle := hseen oldest (hentries ▸ List.mem_cons_self)
          exact absurd (of_decide_eq_true hlt) (Nat.not_lt_of_le hle)
    unfold since
    simp only [hentries, hfirst, if_neg hpositive, ← List.take_eq_take_min]

theorem since_end (hw : h.WF) (pageSize : ℕ) : (h.since h.nextSequence pageSize h.generation).packed = [] ∧
      (h.since h.nextSequence pageSize h.generation).reset = false := by
  cases hentries : h.entries with
  | nil =>
    unfold since
    simp only [hentries]
    simp
  | cons oldest rest =>
    have hdrop : (oldest :: rest).dropWhile (fun e => decide (e.sequence < h.nextSequence)) = [] := by
      apply List.dropWhile_eq_nil_iff.mpr
      intro e he
      rw [← hentries] at he
      exact decide_eq_true (hw.bounded e he)
    have holdest : ¬ h.nextSequence < oldest.sequence := by
      have hlt := hw.bounded oldest (hentries ▸ List.mem_cons_self)
      omega
    unfold since
    simp only [hentries, hdrop, holdest]
    simp [packPoints]

theorem readPages_end (hw : h.WF) (hcursor : c.cursor = h.nextSequence)
    (hgeneration : c.generation = h.generation) (pageSize calls : ℕ) :
    h.readPages pageSize (calls + 1) c = some c := by
  obtain ⟨hpacked, hreset⟩ := since_end hw pageSize
  unfold readPages
  dsimp only
  rw [hcursor, hgeneration, hpacked, hreset]
  rfl

/-- The reader that was handed one page has its points. -/
theorem apply_page (hpoints : c.points = []) (hpacked :
      (h.since c.cursor pageSize c.generation).packed = packPoints (h.entries.take pageSize)) :
    (PositionConsumer.apply c.points (h.since c.cursor pageSize c.generation)).points =
      h.points.take pageSize := by
  unfold PositionConsumer.apply
  rw [hpoints, hpacked, unpackPoints_packPoints, points, List.map_take]
  split_ifs
  · rfl
  · rw [List.take_nil, List.nil_append]

/-- One page, and then the cursor is at the end. -/
theorem readPages_page (hw : h.WF) (hpage : 1 ≤ pageSize) (hpoints : c.points = [])
    (hstart : c.generation ≠ 0 ∧ c.generation ≠ h.generation ∨ ∀ e ∈ h.entries, c.cursor ≤ e.sequence)
    (calls : ℕ) :
    ∃ c', h.readPages pageSize (calls + 2) c = some c' ∧ c'.points = h.points.take pageSize := by
  have hpacked := since_page hpage hstart
  obtain ⟨hnext, hgeneration⟩ := since_cursor h c.cursor pageSize c.generation
  unfold readPages
  dsimp only
  split_ifs with hdone
  · refine ⟨c, rfl, ?_⟩
    rw [Bool.and_eq_true, hpacked, List.isEmpty_iff] at hdone
    have hnone := congrArg List.length hdone.1
    rw [packPoints_length, List.length_nil, positionStride] at hnone
    have hentries : h.entries.take pageSize = [] := List.length_eq_zero_iff.mp (by omega)
    rw [hpoints, points, ← List.map_take, hentries]
    rfl
  · refine ⟨_, readPages_end hw hnext hgeneration pageSize calls, ?_⟩
    exact apply_page hpoints hpacked

end PositionHistory

/-- In every state of the history, a reader that starts with an empty list, at a cursor below which there is no
entry or with a generation that has passed, stops with one page. It has the entries in order exactly when a page
holds as many points as the history has entries. -/
theorem positionPages_complete [Zero F] [Max F] {maxSamples : ℕ} {epsilon : F}
    {actions : List (PositionAction F)} {s : PositionSystem F}
    (hrun : Run PositionSystem.step { history := .create maxSamples epsilon } actions s) {pageSize : ℕ}
    (hpage : 1 ≤ pageSize) {cursor generation : ℕ}
    (hstart : generation ≠ 0 ∧ generation ≠ s.history.generation ∨
      ∀ e ∈ s.history.entries, cursor ≤ e.sequence) (calls : ℕ) :
    ∃ c, s.history.readPages pageSize (calls + 2) ⟨[], cursor, generation⟩ = some c ∧
      c.points = (s.history.entries.map fun e => packPoint e.sample).take pageSize ∧
      (c.points = (s.history.entries.map fun e => packPoint e.sample) ↔
        s.history.entries.length ≤ pageSize) := by
  obtain ⟨c, hread, hpoints⟩ :=
    PositionHistory.readPages_page (PositionSystem.inv_run hrun).history hpage (c := ⟨[], cursor, generation⟩)
      rfl hstart calls
  refine ⟨c, hread, hpoints, ?_⟩
  rw [hpoints, PositionHistory.points, List.take_eq_self_iff, List.length_map]

/-! Three points of which the last two fall together, read in pages of one and of two. -/

def threePoints : List (PositionAction ℤ) :=
  [.append straightLine (axisPoint 0), .append straightLine (axisPoint 1),
    .append straightLine (axisPoint 2)]

theorem positionPages_complete_pair :
    ∃ s, Run PositionSystem.step { history := .create 16 (0 : ℤ) } threePoints s ∧
      s.history.entries.length = 2 ∧
      ∃ c, s.history.readPages 2 2 ⟨[], 0, 0⟩ = some c ∧
        c.points = s.history.entries.map fun e => packPoint e.sample := by
  have hrun := Run.of_exec
    (rfl : exec PositionSystem.step { history := .create 16 (0 : ℤ) } threePoints = some _)
  obtain ⟨c, hread, -, hwhole⟩ : ∃ c, PositionHistory.readPages _ 2 2 ⟨[], 0, 0⟩ = some c ∧ _ ∧ _ :=
    positionPages_complete hrun (by decide) (.inr (by simp)) 0
  exact ⟨_, hrun, rfl, c, hread, hwhole.mpr (by decide)⟩

/-- In pages of one point the reader stops after the first: its cursor is already the end. -/
theorem positionPages_cut : ∃ s, Run PositionSystem.step { history := .create 16 (0 : ℤ) } threePoints s ∧
      s.history.points.length = 2 ∧
      ∃ c, s.history.readPages 1 2 ⟨[], 0, 0⟩ = some c ∧ c.points = s.history.points.take 1 := by
  have hrun := Run.of_exec
    (rfl : exec PositionSystem.step { history := .create 16 (0 : ℤ) } threePoints = some _)
  exact ⟨_, hrun, rfl, _, rfl, rfl⟩

end LinuxcncCtrl
