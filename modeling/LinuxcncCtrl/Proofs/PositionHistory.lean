import LinuxcncCtrl.Sanity.PositionHistory

/-! A consumer that polls by its cursor ends every poll with the history's own points. Its list is the part
of the history below its cursor, followed by one point more exactly when the tail it saw has since been
replaced. -/

namespace LinuxcncCtrl

open Lib

variable {F : Type}

section Consumer

variable [IntCast F]

def PositionHistory.points (h : PositionHistory F) : List (List F) :=
  h.entries.map fun e => packPoint e.sample

/-- A consumer of this generation holds what lies below its cursor, and a replaced tail if any. -/
def Synced (cursor : ℕ) (entries : List (PositionEntry F)) (points : List (List F)) : Prop :=
  ∃ tail, points = ((seen cursor entries).map fun e => packPoint e.sample) ++ tail ∧
    tail.length = owed cursor entries

variable {cursor n : ℕ}

theorem Synced.push {entries : List (PositionEntry F)} {points : List (List F)}
    (h : Synced cursor entries points) (hn : cursor ≤ n) (sample : PositionSample F) :
    Synced cursor (entries ++ [⟨n, sample, none⟩]) points := by
  obtain ⟨tail, hpoints, hlen⟩ := h
  obtain ⟨hseen, hunseen⟩ := split_push entries (e := ⟨n, sample, none⟩) hn
  refine ⟨tail, by rw [hseen]; exact hpoints, ?_⟩
  rw [hlen, owed, owed, hunseen]
  cases unseen cursor entries <;> simp

theorem Synced.replace {front : List (PositionEntry F)} {last : PositionEntry F}
    {points : List (List F)} (h : Synced cursor (front ++ [last]) points) (hn : cursor ≤ n)
    (hroot : ∀ r ∈ last.replacementRoot, r < last.sequence) (sample : PositionSample F) :
    Synced cursor
      (front ++ [⟨n, sample, some (last.replacementRoot.getD last.sequence)⟩]) points := by
  obtain ⟨tail, hpoints, hlen⟩ := h
  obtain ⟨hseen, hunseen⟩ := split_push front
    (e := ⟨n, sample, some (last.replacementRoot.getD last.sequence)⟩) hn
  by_cases hfront : unseen cursor front = []
  · obtain ⟨hs, hu⟩ := split_of_seen [last] hfront
    by_cases hlast : last.sequence < cursor
    · -- the replaced tail had been seen: it is the one point to take back
      have hlast' : seen cursor [last] = [last] ∧ unseen cursor [last] = [] := by
        simp [seen, unseen, hlast]
      rw [hs, hlast'.1] at hpoints
      rw [owed, hu, hlast'.2] at hlen
      have htail : tail = [] := List.length_eq_zero_iff.mp (by simpa using hlen)
      refine ⟨[packPoint last.sample], ?_, ?_⟩
      · rw [hpoints, hseen, seen_of_unseen_nil hfront, htail]
        simp
      · have hlt : last.replacementRoot.getD last.sequence < cursor := by
          cases hr : last.replacementRoot with
          | none => exact hlast
          | some r => exact (hroot r hr).trans hlast
        rw [owed, hunseen, hfront]
        simp [hlt]
    · have hlast' : seen cursor [last] = [] ∧ unseen cursor [last] = [last] := by
        simp [seen, unseen, hlast]
      rw [hs, hlast'.1, List.append_nil] at hpoints
      rw [owed, hu, hlast'.2] at hlen
      refine ⟨tail, by rw [hseen, seen_of_unseen_nil hfront]; exact hpoints, ?_⟩
      rw [hlen, owed, hunseen, hfront]
      cases hr : last.replacementRoot with
      | none => simp [hr, Nat.le_of_not_lt hlast]
      | some r => simp [hr]
  · rw [seen_append _ hfront] at hpoints
    rw [owed, unseen_append _ hfront] at hlen
    refine ⟨tail, by rw [hseen]; exact hpoints, ?_⟩
    obtain ⟨first, rest, hfirst⟩ := List.exists_cons_of_ne_nil hfront
    rw [hlen, owed, hunseen, hfirst]
    simp

structure Tracks (h : PositionHistory F) (c : PositionConsumer F) : Prop where
  cursor_le : c.cursor ≤ h.nextSequence
  generation_pos : 1 ≤ c.generation
  generation_le : c.generation ≤ h.generation
  synced : c.generation = h.generation → Synced c.cursor h.entries c.points

variable {h : PositionHistory F} {c : PositionConsumer F}

/-- A later generation owes the consumer a reset, whatever it holds. -/
theorem Tracks.outdated {h' : PositionHistory F} (ht : Tracks h c)
    (hnext : h.nextSequence ≤ h'.nextSequence) (hgen : h.generation < h'.generation) :
    Tracks h' c :=
  ⟨ht.cursor_le.trans hnext, ht.generation_pos, ht.generation_le.trans hgen.le,
    fun heq => absurd ht.generation_le (by omega)⟩

theorem Tracks.append (hw : h.WF)
    (ht : Tracks h c) (geometry : PositionGeometry F) (sample : PositionSample F) :
    Tracks (h.append geometry sample).1 c := by
  rcases PositionHistory.append_cases geometry sample h with hap | ⟨-, hap⟩ | ⟨-, hap⟩
  · rw [hap]
    exact ht
  · rw [hap]
    exact ht.outdated (Nat.le_succ _) (Nat.lt_succ_self _)
  · rw [hap]
    refine ⟨ht.cursor_le.trans (Nat.le_succ _), ht.generation_pos, ht.generation_le, ?_⟩
    intro hgen
    have hsynced := ht.synced hgen
    rcases PositionHistory.store_cases h geometry sample with hst | ⟨front, last, -, hentries, hst⟩
    · simp only [hst]
      exact hsynced.push ht.cursor_le sample
    · simp only [hst]
      rw [hentries] at hsynced
      exact hsynced.replace ht.cursor_le (hw.roots last (by simp [hentries])) sample

/-- A batch asked for by cursor is everything under a reset, or what the cursor has not seen. -/
theorem since_spec (h : PositionHistory F) (cursor generation : ℕ) (hgen : 1 ≤ generation) :
    (h.since cursor 0 generation).generation = h.generation ∧
    (h.since cursor 0 generation).nextSequence = h.nextSequence ∧
    (((h.since cursor 0 generation).reset = true ∧
        (h.since cursor 0 generation).packed = packPoints h.entries) ∨
      ((h.since cursor 0 generation).reset = false ∧ generation = h.generation ∧
        (h.since cursor 0 generation).packed = packPoints (unseen cursor h.entries) ∧
        (h.since cursor 0 generation).replaceCount = owed cursor h.entries)) := by
  have hpos : generation ≠ 0 := by omega
  cases hentries : h.entries with
  | nil =>
    simp only [PositionHistory.since, hentries, true_and]
    by_cases hreset : generation ≠ h.generation ∨ cursor ≠ h.nextSequence
    · exact .inl ⟨by simpa [hpos] using hreset, rfl⟩
    · obtain ⟨hg, hc⟩ := not_or.mp hreset
      exact .inr ⟨by simpa [hpos] using ⟨not_not.mp hg, not_not.mp hc⟩, not_not.mp hg, rfl, rfl⟩
  | cons oldest rest =>
    simp only [PositionHistory.since, hentries, true_and, if_true, List.take_length]
    by_cases hreset : generation ≠ h.generation ∨ cursor < oldest.sequence
    · have hr : (decide (generation ≠ 0 ∧ generation ≠ h.generation) ||
          decide (cursor < oldest.sequence)) = true := by simpa [hpos] using hreset
      exact .inl ⟨hr, by simp only [hr, if_true]⟩
    · obtain ⟨hg, hc⟩ := not_or.mp hreset
      have hr : (decide (generation ≠ 0 ∧ generation ≠ h.generation) ||
          decide (cursor < oldest.sequence)) = false := by
        simpa [hpos] using ⟨not_not.mp hg, Nat.le_of_not_lt hc⟩
      refine .inr ⟨hr, not_not.mp hg, ?_, ?_⟩
      · simp only [hr, Bool.false_eq_true, if_false, unseen]
      · simp only [hr, Bool.not_false, true_and, Bool.false_eq_true, if_false, owed, unseen]
        congr

theorem Tracks.since_points (ht : Tracks h c) :
    (PositionConsumer.apply c.points (h.since c.cursor 0 c.generation)).points = h.points := by
  obtain ⟨-, -, ⟨hreset, hpacked⟩ | ⟨hreset, hgen, hpacked, hreplace⟩⟩ :=
    since_spec h c.cursor c.generation ht.generation_pos
  · simp only [PositionConsumer.apply, hreset, hpacked, if_true, unpackPoints_packPoints]
    rfl
  · obtain ⟨tail, hpoints, hlen⟩ := ht.synced hgen
    have hkeep : c.points.take (c.points.length - owed c.cursor h.entries) =
        (seen c.cursor h.entries).map fun e => packPoint e.sample := by
      rw [hpoints, List.length_append, hlen, Nat.add_sub_cancel, List.take_left]
    simp only [PositionConsumer.apply, hreset, hpacked, hreplace, unpackPoints_packPoints, hkeep]
    rw [if_neg (by simp), ← List.map_append, seen_append_unseen]
    rfl

/-- A batch with nothing in it means there was nothing to say. -/
theorem Tracks.silent (ht : Tracks h c) (hreset : (h.since c.cursor 0 c.generation).reset = false)
    (hpacked : (h.since c.cursor 0 c.generation).packed = []) : c.points = h.points := by
  obtain ⟨-, -, ⟨hreset', -⟩ | ⟨-, hgen, hpacked', -⟩⟩ :=
    since_spec h c.cursor c.generation ht.generation_pos
  · rw [hreset] at hreset'
    exact absurd hreset' (by simp)
  · have hunseen : unseen c.cursor h.entries = [] := by
      have hlen := packPoints_length (unseen c.cursor h.entries)
      rw [← hpacked', hpacked, List.length_nil, positionStride] at hlen
      exact List.length_eq_zero_iff.mp (by omega)
    obtain ⟨tail, hpoints, hlen⟩ := ht.synced hgen
    have htail : tail = [] := List.length_eq_zero_iff.mp (by simpa [owed, hunseen] using hlen)
    rw [hpoints, htail, List.append_nil, seen_of_unseen_nil hunseen]
    rfl

/-- Holding the history's points at its current sequence and generation is being in step. -/
theorem Tracks.of_points (hw : h.WF)
    (hcursor : c.cursor = h.nextSequence) (hgen : c.generation = h.generation)
    (hpoints : c.points = h.points) : Tracks h c := by
  refine ⟨hcursor.le, hgen ▸ hw.generation, hgen.le, fun _ => ?_⟩
  have hunseen : unseen c.cursor h.entries = [] := by
    rw [unseen, List.dropWhile_eq_nil_iff]
    intro e he
    simpa [hcursor] using hw.bounded e he
  refine ⟨[], ?_, by simp [owed, hunseen]⟩
  rw [seen_of_unseen_nil hunseen, List.append_nil]
  exact hpoints

end Consumer

namespace PositionSystem

variable [IntCast F] [Zero F] [Max F]

structure Inv (s : PositionSystem F) : Prop where
  history : s.history.WF
  consumer : ∀ c, s.consumer = some c → Tracks s.history c

variable {s : PositionSystem F} {s' : PositionSystem F}

theorem poll_points (h : Inv s) (hstep : step s .poll = some s') :
    s'.history = s.history ∧ ∃ c, s'.consumer = some c ∧ c.cursor = s.history.nextSequence ∧
      c.generation = s.history.generation ∧ c.points = s.history.points := by
  cases hstep
  cases hc : s.consumer with
  | none =>
    refine ⟨rfl, _, rfl, ?_, ?_, ?_⟩
    · simp [PositionConsumer.apply, nextBatch, hc, PositionHistory.snapshot]
    · simp [PositionConsumer.apply, nextBatch, hc, PositionHistory.snapshot]
    · simp [PositionConsumer.apply, nextBatch, hc, PositionHistory.snapshot,
        unpackPoints_packPoints, PositionHistory.points]
  | some c =>
    have ht := h.consumer c hc
    obtain ⟨hgen, hnext, -⟩ := since_spec s.history c.cursor c.generation ht.generation_pos
    refine ⟨rfl, _, rfl, ?_, ?_, ?_⟩
    · simpa [PositionConsumer.apply, nextBatch, hc] using hnext
    · simpa [PositionConsumer.apply, nextBatch, hc] using hgen
    · simpa [nextBatch, points, hc] using ht.since_points

theorem inv_step {a : PositionAction F} (h : Inv s) (hstep : step s a = some s') : Inv s' := by
  cases a with
  | append geometry sample =>
    cases hstep
    exact ⟨h.history.append geometry sample, fun c hc => (h.consumer c hc).append h.history geometry sample⟩
  | clear =>
    cases hstep
    exact ⟨h.history.clear, fun c hc => (h.consumer c hc).outdated le_rfl (Nat.lt_succ_self _)⟩
  | configure maxSamples epsilon =>
    cases hstep
    exact ⟨h.history.configure maxSamples epsilon,
      fun c hc => (h.consumer c hc).outdated le_rfl (Nat.lt_succ_self _)⟩
  | poll =>
    obtain ⟨hhistory, c, hc, hcursor, hgen, hpoints⟩ := poll_points h hstep
    refine ⟨hhistory ▸ h.history, fun c' hc' => ?_⟩
    cases hc.symm.trans hc'
    rw [hhistory]
    exact Tracks.of_points h.history hcursor hgen hpoints

theorem inv_run {maxSamples : ℕ} {epsilon : F} {actions : List (PositionAction F)}
    (hrun : Run step { history := .create maxSamples epsilon } actions s) : Inv s :=
  hrun.invariant ⟨PositionHistory.wf_create maxSamples epsilon, fun c hc => by simp at hc⟩
    (fun _ _ _ hstep h => inv_step h hstep)

end PositionSystem

/-- In every run, each poll ends with the consumer holding the history's points in order, and a poll
whose batch is neither a reset nor carries points found them already there. -/
theorem positionHistory_synchronised [IntCast F] [Zero F] [Max F] {maxSamples : ℕ} {epsilon : F}
    {actions : List (PositionAction F)} {s s' : PositionSystem F}
    (hrun : Run PositionSystem.step { history := .create maxSamples epsilon } actions s)
    (hpoll : s.step .poll = some s') :
    (∃ c, s'.consumer = some c ∧ c.points = s'.history.points) ∧
    (∀ c, s.consumer = some c → s.nextBatch.reset = false → s.nextBatch.packed = [] →
      c.points = s.history.points) := by
  have hinv := PositionSystem.inv_run hrun
  obtain ⟨hhistory, c, hc, -, -, hpoints⟩ := PositionSystem.poll_points hinv hpoll
  refine ⟨⟨c, hc, hhistory ▸ hpoints⟩, ?_⟩
  intro c hc hreset hpacked
  simp only [PositionSystem.nextBatch, hc] at hreset hpacked
  exact (hinv.consumer c hc).silent hreset hpacked

/-- A point on the first axis, and the geometry of a straight line. -/
def axisPoint (x : ℤ) : PositionSample ℤ :=
  ⟨(Vector.replicate 9 0).set 0 x, 0⟩

def straightLine : PositionGeometry ℤ :=
  ⟨fun a b _ => a ≠ b, fun _ _ _ => true⟩

/-- The tail the consumer saw is replaced before its second poll. -/
theorem positionHistory_synchronised_replaced_tail :
    ∃ s s', Run PositionSystem.step { history := .create 16 (0 : ℤ) }
        [.append straightLine (axisPoint 0), .append straightLine (axisPoint 1), .poll,
          .append straightLine (axisPoint 2)] s ∧
      s.step .poll = some s' ∧ s.nextBatch.replaceCount = 1 ∧
      ∃ c, s'.consumer = some c ∧ c.points = s'.history.points := by
  have hrun := Run.of_exec
    (rfl : exec PositionSystem.step { history := .create 16 (0 : ℤ) }
      [.append straightLine (axisPoint 0), .append straightLine (axisPoint 1), .poll,
        .append straightLine (axisPoint 2)] = some _)
  exact ⟨_, _, hrun, rfl, by decide, (positionHistory_synchronised hrun rfl).1⟩

end LinuxcncCtrl
