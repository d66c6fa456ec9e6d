import LinuxcncCtrl.Spec.ErrorStream

/-! The ring of errors is a window of consecutive numbers at the end of everything published, so what a
reader finds first after its cursor is the next number, or it is told that it fell behind. -/

namespace LinuxcncCtrl

open Lib

variable {E : Type}

/-- The ring has the last of the published errors under their numbers. -/
structure SequencedRing.Window (ring : SequencedRing E) (published : List E) : Prop where
  capacity : 0 < ring.capacity
  next : ring.nextSequence = published.length + 1
  consecutive : ∃ first, 0 < first ∧ Consecutive SequencedEntry.sequence first ring.entries ∧
    first + ring.entries.length = ring.nextSequence
  event : ∀ entry ∈ ring.entries, published[entry.sequence - 1]? = some entry.event
  empty : ring.entries = [] → published = []

namespace SequencedRing

variable {ring : SequencedRing E} {published : List E} {cursor : ℕ} {entry : SequencedEntry E}
  {front : SequencedEntry E}

theorem window_nil {capacity : ℕ} (h : 0 < capacity) : ({ capacity } : SequencedRing E).Window [] :=
  ⟨h, rfl, ⟨1, Nat.one_pos, .nil, rfl⟩, nofun, fun _ => rfl⟩

section

variable (h : ring.Window published)

include h

theorem Window.publish (event : E) : (ring.publish event).Window (published ++ [event]) := by
  obtain ⟨first, hfirst, hconsecutive, hlength⟩ := h.consecutive
  have hpushed : Consecutive SequencedEntry.sequence first
      (ring.entries ++ [⟨ring.nextSequence, event⟩]) := hconsecutive.append hlength.symm
  have hevent : ∀ entry ∈ ring.entries ++ [⟨ring.nextSequence, event⟩],
      (published ++ [event])[entry.sequence - 1]? = some entry.event := by
    intro entry hentry
    rcases List.mem_append.mp hentry with hold | hnew
    · have hsome := h.event entry hold
      rw [List.getElem?_append_left (List.getElem?_eq_some_iff.mp hsome).1, hsome]
    · rw [List.mem_singleton.mp hnew]
      rw [h.next, Nat.add_sub_cancel, List.getElem?_concat_length]
  have hnext : ring.nextSequence + 1 = (published ++ [event]).length + 1 := by
    rw [List.length_append, List.length_singleton, h.next]
  unfold SequencedRing.publish
  dsimp only
  split_ifs with hfull
  · -- the oldest entry makes room
    cases hentries : ring.entries with
    | nil =>
      rw [hentries] at hfull
      exact absurd hfull (Nat.not_lt.mpr h.capacity)
    | cons oldest rest =>
      rw [hentries] at hpushed hevent hlength
      refine ⟨h.capacity, hnext, ⟨first + 1, Nat.succ_pos _, (Consecutive.cons_iff.mp hpushed).2, ?_⟩,
        fun entry hentry => hevent entry (List.mem_of_mem_tail hentry), ?_⟩
      · show first + 1 + (rest ++ [_]).length = ring.nextSequence + 1
        rw [List.length_cons] at hlength
        rw [List.length_append, List.length_singleton]
        omega
      · intro hnil
        exact absurd hnil (List.append_ne_nil_of_right_ne_nil _ (List.cons_ne_nil _ _))
  · refine ⟨h.capacity, hnext, ⟨first, hfirst, hpushed, ?_⟩, hevent, ?_⟩
    · show first + (ring.entries ++ [_]).length = ring.nextSequence + 1
      rw [List.length_append, List.length_singleton]
      omega
    · intro hnil
      exact absurd hnil (List.append_ne_nil_of_right_ne_nil _ (List.cons_ne_nil _ _))

theorem Window.sequence_pos (hentry : entry ∈ ring.entries) : 0 < entry.sequence := by
  obtain ⟨first, hfirst, hconsecutive, -⟩ := h.consecutive
  exact hfirst.trans_le (hconsecutive.mem_bounds hentry).1

theorem Window.sequence_le (hentry : entry ∈ ring.entries) : entry.sequence ≤ published.length := by
  have hlt := (List.getElem?_eq_some_iff.mp (h.event entry hentry)).1
  have hpositive := h.sequence_pos hentry
  omega

theorem Window.front_le (hfront : front ∈ ring.entries.head?) (hentry : entry ∈ ring.entries) :
    front.sequence ≤ entry.sequence := by
  obtain ⟨first, -, hconsecutive, -⟩ := h.consecutive
  obtain ⟨rest, hentries⟩ := List.head?_eq_some_iff.mp hfront
  have hbounds := (hconsecutive.mem_bounds hentry).1
  rw [hentries] at hconsecutive
  rw [(Consecutive.cons_iff.mp hconsecutive).1]
  exact hbounds

theorem Window.after_zero : ring.after 0 = { entries := ring.entries } := by
  unfold SequencedRing.after
  rw [if_neg (fun hand => hand.1 rfl), List.filter_eq_self.mpr]
  exact fun entry hentry => decide_eq_true (h.sequence_pos hentry)

theorem Window.after_cons (hcursor : cursor ≠ 0) {rest : List (SequencedEntry E)}
    (hafter : ring.after cursor = { entries := entry :: rest }) :
    entry ∈ ring.entries ∧ entry.sequence = cursor + 1 := by
  obtain ⟨first, hfirst, hconsecutive, -⟩ := h.consecutive
  unfold SequencedRing.after at hafter
  split_ifs at hafter with hbehind
  · cases congrArg RingReadResult.behind hafter
  · have hfilter : ring.entries.filter (fun entry => decide (cursor < entry.sequence)) =
        entry :: rest := congrArg RingReadResult.entries hafter
    have hmem : entry ∈ ring.entries.filter fun entry => decide (cursor < entry.sequence) := by
      rw [hfilter]
      exact List.mem_cons_self
    obtain ⟨hentry, hlater⟩ := List.mem_filter.mp hmem
    have hbounds := hconsecutive.mem_bounds hentry
    have hcursorLt := of_decide_eq_true hlater
    refine ⟨hentry, ?_⟩
    have hstart : first ≤ cursor + 1 := by
      cases hentries : ring.entries with
      | nil =>
        rw [hentries] at hentry
        cases hentry
      | cons front tail =>
        have hfront := not_and.mp hbehind hcursor
        rw [hentries] at hfront hconsecutive
        have hle : ¬ (cursor + 1) % 2 ^ 64 < front.sequence := fun hlt => hfront ⟨front, rfl, hlt⟩
        have hmod := Nat.mod_le (cursor + 1) (2 ^ 64)
        rw [(Consecutive.cons_iff.mp hconsecutive).1] at hle
        omega
    obtain ⟨found, hfound, hkey⟩ := hconsecutive.exists_mem hstart (by omega)
    have hfind := hconsecutive.find?_eq_some hfound
      (p := fun entry => decide (cursor < entry.sequence))
      (decide_eq_true (by omega)) fun other _ hother => by
        have hlt := of_decide_eq_true hother
        omega
    rw [← List.head?_filter, hfilter, List.head?_cons] at hfind
    rw [Option.some.inj hfind, hkey]

end

theorem after_behind (hcursor : cursor ≠ 0)
    (hfront : front ∈ ring.entries.head?) (hgone : cursor + 1 < front.sequence) :
    (ring.after cursor).behind = true := by
  unfold SequencedRing.after
  have hmod := Nat.mod_le (cursor + 1) (2 ^ 64)
  rw [if_pos ⟨hcursor, front, hfront, by omega⟩]

theorem after_empty (h : ring.after cursor = {}) (hentry : entry ∈ ring.entries) : entry.sequence ≤ cursor := by
  unfold SequencedRing.after at h
  split_ifs at h
  · cases congrArg RingReadResult.behind h
  · have hnone := List.filter_eq_nil_iff.mp (congrArg RingReadResult.entries h) entry hentry
    simpa using hnone

theorem behind_after (h : (ring.after cursor).behind = true) :
    cursor ≠ 0 ∧ ∃ front ∈ ring.entries.head?, (cursor + 1) % 2 ^ 64 < front.sequence := by
  unfold SequencedRing.after at h
  split_ifs at h with hbehind
  exact hbehind

/-- Publishing moves the front on, if at all. -/
theorem Window.front_publish (h : ring.Window published) (hfront : front ∈ ring.entries.head?) (event : E) :
    ∃ front' ∈ (ring.publish event).entries.head?, front.sequence ≤ front'.sequence := by
  have hfrom : ∀ entry ∈ (ring.publish event).entries,
      entry ∈ ring.entries ++ [⟨ring.nextSequence, event⟩] := by
    intro entry hentry
    unfold SequencedRing.publish at hentry
    dsimp only at hentry
    split_ifs at hentry
    · exact List.mem_of_mem_tail hentry
    · exact hentry
  cases hentries : (ring.publish event).entries with
  | nil => simpa using (h.publish event).empty hentries
  | cons front' rest =>
    refine ⟨front', rfl, ?_⟩
    rcases List.mem_append.mp (hfrom front' (hentries ▸ List.mem_cons_self)) with hold | hnew
    · exact h.front_le hfront hold
    · rw [List.mem_singleton.mp hnew, h.next]
      exact Nat.le_succ_of_le (h.sequence_le (List.mem_of_mem_head? hfront))

theorem after_cases (ring : SequencedRing E) (cursor : ℕ) : (ring.after cursor).behind = true ∨
      ring.after cursor = { entries := (ring.after cursor).entries } := by
  unfold SequencedRing.after
  split_ifs
  · exact .inl rfl
  · exact .inr rfl

end SequencedRing

namespace ErrorReactor

variable {reactor : ErrorReactor}

/-- A requested finish waits for the outstanding write only. -/
structure Orderly (reactor : ErrorReactor) : Prop where
  started : reactor.gate = .opened → reactor.writeFinish.finishStarted = false
  pending : reactor.gate = .opened → reactor.writeFinish.terminalStatus.isSome = true →
    reactor.writeFinish.writeInFlight = true
  finished : reactor.gate ≠ .opened → reactor.writeFinish.terminalStatus.isSome = true ∧
    reactor.writeFinish.writeInFlight = false ∧
    reactor.finished = reactor.writeFinish.terminalStatus

def Ready (reactor : ErrorReactor) : Prop :=
  reactor.writeFinish.writeInFlight = false ∧ reactor.writeFinish.terminationRequested = false ∧
    reactor.gate = .opened

theorem Ready.terminalStatus (h : reactor.Ready) : reactor.writeFinish.terminalStatus = none := by
  have hnone := (Bool.or_eq_false_iff.mp h.2.1).1
  exact Option.isNone_iff_eq_none.mp (by rw [← Option.not_isSome, hnone]; rfl)

theorem finishIfReady_none (h : reactor.writeFinish.terminalStatus = none) :
    reactor.finishIfReady = (reactor, false) := by
  unfold finishIfReady DeferredWriteFinish.takeFinishStatus
  rw [h]
  split_ifs <;> rfl

theorem finishIfReady_busy (h : reactor.writeFinish.writeInFlight = true) :
    reactor.finishIfReady = (reactor, false) := by
  unfold finishIfReady DeferredWriteFinish.takeFinishStatus
  rw [if_pos (.inl h)]

theorem finishIfReady_some (hgate : reactor.gate = .opened)
    (hstarted : reactor.writeFinish.finishStarted = false)
    (hidle : reactor.writeFinish.writeInFlight = false) {status : GrpcStatus}
    (h : reactor.writeFinish.terminalStatus = some status) :
    reactor.finishIfReady =
      ({ reactor with
        writeFinish := { reactor.writeFinish with finishStarted := true }
        gate := .finishing
        subscribed := false
        finished := some status }, true) := by
  unfold finishIfReady DeferredWriteFinish.takeFinishStatus
  rw [if_neg (by rw [hidle, hstarted]; decide), h]
  simp only [Option.map_some]
  rw [if_pos hgate, ← h]

theorem Orderly.requestFinish (h : reactor.Orderly) (hgate : reactor.gate = .opened) (status : GrpcStatus) :
    (reactor.requestFinish status).Orderly ∧ (reactor.requestFinish status).writeFinish.terminalStatus =
        reactor.writeFinish.terminalStatus.or (some status) ∧
      (reactor.requestFinish status).writeFinish.writeInFlight = reactor.writeFinish.writeInFlight ∧
      (reactor.requestFinish status).writingSequence = reactor.writingSequence ∧
      (reactor.requestFinish status).subscribed = false := by
  have hstarted := h.started hgate
  have hrequest : reactor.writeFinish.requestFinish status = { reactor.writeFinish with
        terminalStatus := reactor.writeFinish.terminalStatus.or (some status) } := by
    unfold DeferredWriteFinish.requestFinish
    cases hstatus : reactor.writeFinish.terminalStatus with
    | none => rw [if_pos (by rw [hstarted]; exact ⟨rfl, rfl⟩), Option.none_or]
    | some old =>
      rw [if_neg (fun hand => nomatch hand.1), Option.some_or, ← hstatus]
  unfold ErrorReactor.requestFinish
  rw [hrequest]
  generalize hstatus : reactor.writeFinish.terminalStatus.or (some status) = final
  have hsome : final.isSome = true := by
    rw [← hstatus, Option.isSome_or, Option.isSome_some, Bool.or_true]
  obtain ⟨last, rfl⟩ := Option.isSome_iff_exists.mp hsome
  cases hidle : reactor.writeFinish.writeInFlight with
  | true =>
    rw [finishIfReady_busy (by exact hidle)]
    exact ⟨⟨fun _ => hstarted, fun _ _ => hidle, fun hclosed => absurd hgate hclosed⟩, rfl, hidle, rfl, rfl⟩
  | false =>
    rw [finishIfReady_some (by exact hgate) (by exact hstarted) (by exact hidle) (by rfl)]
    exact ⟨⟨nofun, nofun, fun _ => ⟨rfl, hidle, rfl⟩⟩, rfl, hidle, rfl, rfl⟩

theorem Orderly.not_ready (h : reactor.Orderly) (hgate : reactor.gate = .opened)
    (status : GrpcStatus) : ¬ (reactor.requestFinish status).Ready := by
  intro hready
  have hstatus := (h.requestFinish hgate status).2.1
  rw [hready.terminalStatus] at hstatus
  cases hold : reactor.writeFinish.terminalStatus <;> rw [hold] at hstatus <;> cases hstatus

theorem Orderly.invoke_not_ready (h : reactor.Orderly) (status : GrpcStatus) :
    ¬ (reactor.invoke fun reactor => reactor.requestFinish status).Ready := by
  unfold ErrorReactor.invoke
  split_ifs with hgate
  · exact h.not_ready hgate status
  · exact fun hready => hgate hready.2.2

end ErrorReactor

end LinuxcncCtrl
