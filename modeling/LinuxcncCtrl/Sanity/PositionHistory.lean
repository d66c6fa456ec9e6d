import LinuxcncCtrl.Spec.PositionHistory

/-! The position history on its own: packed points unpack to themselves, an append pushes or replaces
the tail, and the entries stay in the order of their sequences below the next one. -/

namespace LinuxcncCtrl

open Lib

variable {F : Type}

section Packing

variable [IntCast F]

theorem packPoint_length (sample : PositionSample F) : (packPoint sample).length = positionStride := by
  simp [packPoint, positionStride]

theorem packPoints_length (entries : List (PositionEntry F)) :
    (packPoints entries).length = positionStride * entries.length := by
  induction entries with
  | nil => rfl
  | cons e es ih =>
    simp only [packPoints, List.flatMap_cons, List.length_append, packPoint_length,
      List.length_cons] at ih ⊢
    rw [ih]
    ring

theorem unpackPoints_packPoints (entries : List (PositionEntry F)) :
    unpackPoints (packPoints entries) = entries.map fun e => packPoint e.sample := by
  induction entries with
  | nil => simp [unpackPoints, packPoints]
  | cons e es ih =>
    have hcons : packPoints (e :: es) = packPoint e.sample ++ packPoints es := by
      simp [packPoints]
    have hlen : (packPoints (e :: es)).length / positionStride =
        (packPoints es).length / positionStride + 1 := by
      simp [packPoints_length, positionStride]
    have hskip : ∀ i, (packPoint e.sample ++ packPoints es).drop (positionStride * (i + 1)) =
        (packPoints es).drop (positionStride * i) := by
      intro i
      rw [show positionStride * (i + 1) = positionStride + positionStride * i by ring,
        ← List.drop_drop, ← packPoint_length e.sample, List.drop_left]
    rw [unpackPoints, hlen, hcons, List.range_succ_eq_map, List.map_cons, List.map_map,
      List.map_cons, ← ih, unpackPoints]
    congr 1
    · rw [Nat.mul_zero, List.drop_zero, ← packPoint_length e.sample, List.take_left]
    · refine List.map_congr_left fun i _ => ?_
      simp only [Function.comp, Nat.succ_eq_add_one, hskip]

end Packing

namespace PositionHistory

theorem store_cases (h : PositionHistory F) (geometry : PositionGeometry F) (sample : PositionSample F) :
    h.store geometry sample = h.entries ++ [⟨h.nextSequence, sample, none⟩] ∨
    ∃ front last, front ≠ [] ∧ h.entries = front ++ [last] ∧ h.store geometry sample =
      front ++ [⟨h.nextSequence, sample, some (last.replacementRoot.getD last.sequence)⟩] := by
  unfold store
  split
  · rename_i last penultimate front hrev
    have hentries : h.entries = front.reverse ++ [penultimate] ++ [last] := by
      rw [← List.reverse_reverse h.entries, hrev]
      simp
    split_ifs
    · exact .inr ⟨front.reverse ++ [penultimate], last, by simp, hentries, rfl⟩
    · exact .inl rfl
  · exact .inl rfl

structure WF (h : PositionHistory F) : Prop where
  capacity : 1 ≤ h.maxSamples ∧ h.entries.length ≤ h.maxSamples
  generation : 1 ≤ h.generation
  sorted : h.entries.Pairwise (·.sequence < ·.sequence)
  bounded : ∀ e ∈ h.entries, e.sequence < h.nextSequence
  roots : ∀ e ∈ h.entries, ∀ r ∈ e.replacementRoot, r < e.sequence

theorem wf_create [Zero F] [Max F] (maxSamples : ℕ) (epsilon : F) : (create maxSamples epsilon).WF :=
  ⟨⟨le_max_left _ _, Nat.zero_le _⟩, le_rfl, List.Pairwise.nil, by simp [create], by simp [create]⟩

variable {h : PositionHistory F}

theorem WF.sublist (hw : h.WF) {h' : PositionHistory F}
    (hsub : h'.entries.Sublist h.entries) (hnext : h'.nextSequence = h.nextSequence)
    (hgen : h.generation ≤ h'.generation)
    (hcap : 1 ≤ h'.maxSamples ∧ h'.entries.length ≤ h'.maxSamples) : h'.WF :=
  ⟨hcap, hw.generation.trans hgen, hw.sorted.sublist hsub,
    fun e he => hnext ▸ hw.bounded e (hsub.subset he), fun e he => hw.roots e (hsub.subset he)⟩

section

variable (geometry : PositionGeometry F) (sample : PositionSample F)

theorem WF.store (hw : h.WF) :
    (h.store geometry sample).Pairwise (·.sequence < ·.sequence) ∧
    (∀ e ∈ h.store geometry sample, e.sequence < h.nextSequence + 1) ∧
    (∀ e ∈ h.store geometry sample, ∀ r ∈ e.replacementRoot, r < e.sequence) ∧
    (h.store geometry sample).length ≤ h.entries.length + 1 := by
  rcases store_cases h geometry sample with hst | ⟨front, last, -, hentries, hst⟩
  · rw [hst]
    refine ⟨?_, ?_, ?_, by simp⟩
    · refine List.pairwise_append.mpr ⟨hw.sorted, List.pairwise_singleton _ _, ?_⟩
      intro a ha b hb
      rw [List.mem_singleton.mp hb]
      exact hw.bounded a ha
    · intro e he
      rcases List.mem_append.mp he with he | he
      · exact (hw.bounded e he).trans (Nat.lt_succ_self _)
      · rw [List.mem_singleton.mp he]
        exact Nat.lt_succ_self _
    · intro e he
      rcases List.mem_append.mp he with he | he
      · exact hw.roots e he
      · rw [List.mem_singleton.mp he]
        simp
  · have hlast : last ∈ h.entries := by simp [hentries]
    have hfront : ∀ e ∈ front, e ∈ h.entries := fun e he => by simp [hentries, he]
    have hsorted := hw.sorted
    rw [hentries, List.pairwise_append] at hsorted
    have hroot : last.replacementRoot.getD last.sequence ≤ last.sequence := by
      cases hr : last.replacementRoot with
      | none => exact le_rfl
      | some r => exact (hw.roots last hlast r hr).le
    rw [hst]
    refine ⟨?_, ?_, ?_, by simp [hentries]⟩
    · refine List.pairwise_append.mpr ⟨hsorted.1, List.pairwise_singleton _ _, ?_⟩
      intro a ha b hb
      rw [List.mem_singleton.mp hb]
      exact hw.bounded a (hfront a ha)
    · intro e he
      rcases List.mem_append.mp he with he | he
      · exact (hw.bounded e (hfront e he)).trans (Nat.lt_succ_self _)
      · rw [List.mem_singleton.mp he]
        exact Nat.lt_succ_self _
    · intro e he
      rcases List.mem_append.mp he with he | he
      · exact hw.roots e (hfront e he)
      · rw [List.mem_singleton.mp he]
        intro r hr
        rw [Option.mem_some_iff] at hr
        exact hr ▸ hroot.trans_lt (hw.bounded last hlast)

theorem append_cases (h : PositionHistory F) :
    (h.append geometry sample).1 = h ∨
    ((h.store geometry sample).length > h.maxSamples ∧ (h.append geometry sample).1 = { h with
        nextSequence := h.nextSequence + 1
        entries := (h.store geometry sample).tail
        generation := h.generation + 1 }) ∨
    ((h.store geometry sample).length ≤ h.maxSamples ∧ (h.append geometry sample).1 =
      { h with nextSequence := h.nextSequence + 1, entries := h.store geometry sample }) := by
  unfold append
  split_ifs with hsame
  · exact .inl rfl
  · by_cases hfull : (h.store geometry sample).length > h.maxSamples
    · exact .inr (.inl ⟨hfull, by simp [hfull]⟩)
    · exact .inr (.inr ⟨by omega, by simp [hfull]⟩)

theorem WF.append (hw : h.WF) : (h.append geometry sample).1.WF := by
  obtain ⟨hsorted, hbounded, hroots, hlen⟩ := hw.store geometry sample
  obtain ⟨hpos, hcap⟩ := hw.capacity
  rcases append_cases geometry sample h with hap | ⟨-, hap⟩ | ⟨hfit, hap⟩
  · rw [hap]
    exact hw
  · rw [hap]
    have htail : (h.store geometry sample).tail.Sublist (h.store geometry sample) :=
      List.tail_sublist _
    have hfit : (h.store geometry sample).tail.length ≤ h.maxSamples := by
      rw [List.length_tail]
      omega
    exact ⟨⟨hpos, hfit⟩, hw.generation.trans (Nat.le_succ _), hsorted.sublist htail,
      fun e he => hbounded e (htail.subset he), fun e he => hroots e (htail.subset he)⟩
  · rw [hap]
    exact ⟨⟨hpos, hfit⟩, hw.generation, hsorted, hbounded, hroots⟩

end

theorem WF.configure [Zero F] [Max F] (hw : h.WF) (maxSamples : ℕ)
    (epsilon : F) : (h.configure maxSamples epsilon).WF := by
  refine hw.sublist (List.drop_sublist _ _) rfl (Nat.le_succ _) ⟨le_max_left _ _, ?_⟩
  simp only [PositionHistory.configure, List.length_drop]
  omega

theorem WF.clear (hw : h.WF) : h.clear.WF :=
  hw.sublist (List.nil_sublist _) rfl (Nat.le_succ _) ⟨hw.capacity.1, Nat.zero_le _⟩

end PositionHistory

section Cursor

variable {cursor : ℕ} {entries : List (PositionEntry F)}

def seen (cursor : ℕ) (entries : List (PositionEntry F)) : List (PositionEntry F) :=
  entries.takeWhile (·.sequence < cursor)

def unseen (cursor : ℕ) (entries : List (PositionEntry F)) : List (PositionEntry F) :=
  entries.dropWhile (·.sequence < cursor)

/-- The points a consumer at `cursor` has to take back: one if the first unseen entry replaced a
point it saw. -/
def owed (cursor : ℕ) (entries : List (PositionEntry F)) : ℕ :=
  if (unseen cursor entries).head?.any fun e => e.replacementRoot.getD cursor < cursor then 1 else 0

theorem seen_append_unseen (cursor : ℕ) (entries : List (PositionEntry F)) :
    seen cursor entries ++ unseen cursor entries = entries :=
  List.takeWhile_append_dropWhile

theorem seen_of_unseen_nil (h : unseen cursor entries = []) : seen cursor entries = entries := by
  simpa [h] using seen_append_unseen cursor entries

theorem seen_append (more : List (PositionEntry F)) (h : unseen cursor entries ≠ []) :
    seen cursor (entries ++ more) = seen cursor entries := by
  have hlen : (seen cursor entries).length ≠ entries.length := by
    have hsum := congrArg List.length (seen_append_unseen cursor entries)
    have hpos := List.length_pos_iff.mpr h
    rw [List.length_append] at hsum
    omega
  unfold seen at hlen ⊢
  rw [List.takeWhile_append, if_neg hlen]

theorem unseen_append (more : List (PositionEntry F)) (h : unseen cursor entries ≠ []) :
    unseen cursor (entries ++ more) = unseen cursor entries ++ more := by
  rw [unseen, List.dropWhile_append, if_neg (by simpa [unseen] using h), unseen]

theorem split_of_seen (more : List (PositionEntry F)) (h : unseen cursor entries = []) :
    seen cursor (entries ++ more) = entries ++ seen cursor more ∧
      unseen cursor (entries ++ more) = unseen cursor more := by
  have hlen := congrArg List.length (seen_of_unseen_nil h)
  constructor
  · unfold seen at hlen ⊢
    rw [List.takeWhile_append, if_pos hlen]
  · rw [unseen, List.dropWhile_append, if_pos (by simpa [unseen] using h), unseen]

theorem split_push (entries : List (PositionEntry F)) {e : PositionEntry F} (he : cursor ≤ e.sequence) :
    seen cursor (entries ++ [e]) = seen cursor entries ∧
      unseen cursor (entries ++ [e]) = unseen cursor entries ++ [e] := by
  by_cases h : unseen cursor entries = []
  · obtain ⟨hseen, hunseen⟩ := split_of_seen [e] h
    rw [hseen, hunseen, h, seen_of_unseen_nil h]
    simp [seen, unseen, he]
  · exact ⟨seen_append [e] h, unseen_append [e] h⟩

end Cursor

end LinuxcncCtrl
