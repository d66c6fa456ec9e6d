import LinuxcncCtrl.Spec.StatusStream

/-! What the pieces of the status stream do on their own. `HistoryInv` says how the retained history
sits in the log of all samples and is kept by every observation; the reactor's bookkeeping calls
change nothing a client could notice. -/

namespace LinuxcncCtrl

open Lib

variable {N E D : Type} {α : Type}

theorem getElem?_concat_cases {l : List α} {a x : α} {i : ℕ}
    (h : (l ++ [a])[i]? = some x) : (i < l.length ∧ l[i]? = some x) ∨ (i = l.length ∧ x = a) := by
  rcases lt_trichotomy i l.length with hi | hi | hi
  · rw [List.getElem?_append_left hi] at h
    exact .inl ⟨hi, h⟩
  · subst hi
    simp only [List.getElem?_concat_length, Option.some.injEq] at h
    exact .inr ⟨rfl, h.symm⟩
  · rw [List.getElem?_eq_none (by simp; omega)] at h
    exact absurd h (by simp)

def Numbered (log : List (Sample E D)) : Prop :=
  ∀ i x, log[i]? = some x → x.sequence = i + 1

variable {log : List (Sample E D)} {x : Sample E D}

theorem Numbered.eq_of_sequence (h : Numbered log) {y : Sample E D}
    (hx : x ∈ log) (hy : y ∈ log) (hxy : x.sequence = y.sequence) : x = y := by
  obtain ⟨i, hi⟩ := List.mem_iff_getElem?.mp hx
  obtain ⟨j, hj⟩ := List.mem_iff_getElem?.mp hy
  have hij : i = j := by
    have := h i x hi
    have := h j y hj
    omega
  subst hij
  exact Option.some.inj (hi.symm.trans hj)

theorem Numbered.sequence_le (h : Numbered log)
    (hx : x ∈ log) : 1 ≤ x.sequence ∧ x.sequence ≤ log.length := by
  obtain ⟨i, hi⟩ := List.mem_iff_getElem?.mp hx
  have hlt : i < log.length := (List.getElem?_eq_some_iff.mp hi).1
  have := h i x hi
  omega

theorem Numbered.sequence_getLast (h : Numbered log)
    (hx : log.getLast? = some x) : x.sequence = log.length := by
  have hne : log ≠ [] := by rintro rfl; simp at hx
  have hpos := List.length_pos_iff.mpr hne
  rw [List.getLast?_eq_getElem?] at hx
  have := h _ x hx
  omega

theorem Numbered.push (h : Numbered log) (hx : x.sequence = log.length + 1) : Numbered (log ++ [x]) := by
  intro i y hy
  rcases getElem?_concat_cases hy with ⟨-, hy⟩ | ⟨rfl, rfl⟩
  · exact h i y hy
  · exact hx

/-- How the service's history sits in the log of all samples. -/
structure HistoryInv (codec : DeltaCodec E D) (service : StatusService E D)
    (log : List (Sample E D)) (observed : Option E) (rebase : ℕ) : Prop where
  capacity : 1 ≤ service.replayCapacity
  numbered : Numbered log
  sequence : service.sequence = log.length
  latest : service.latest = log.getLast?
  suffix : service.history <:+ log
  nonempty : log ≠ [] → service.history ≠ []
  linked : service.history.IsChain codec.Follows
  rebased : ∀ x ∈ service.history, rebase ≤ x.sequence
  observed : observed = service.latest.map (·.encoded)

theorem getLast?_of_suffix {l m : List α} (h : l <:+ m) (hl : l ≠ []) : l.getLast? = m.getLast? := by
  obtain ⟨front, rfl⟩ := h
  rw [List.getLast?_append_of_ne_nil _ hl]

variable {codec : DeltaCodec E D} {service : StatusService E D} {observed : Option E} {rebase : ℕ}
  {history : List (Sample E D)}

theorem HistoryInv.history_getLast? (h : HistoryInv codec service log observed rebase) :
    service.history.getLast? = log.getLast? := by
  by_cases hlog : log = []
  · have hnil : service.history = [] := List.suffix_nil.mp (hlog ▸ h.suffix)
    rw [hlog, hnil]
  · exact getLast?_of_suffix h.suffix (h.nonempty hlog)

theorem historyInv_init (codec : DeltaCodec E D) {replayCapacity : ℕ} (h : 1 ≤ replayCapacity) :
    HistoryInv codec ({ replayCapacity } : StatusService E D) [] none 0 where
  capacity := h
  numbered := by intro i x hx; simp at hx
  sequence := rfl
  latest := rfl
  suffix := List.nil_suffix
  nonempty := fun h => absurd rfl h
  linked := List.isChain_nil
  rebased := by simp
  observed := rfl

theorem trimHistory_spec {capacity : ℕ} (hcap : 1 ≤ capacity) (hne : history ≠ []) :
    trimHistory capacity history <:+ history ∧ trimHistory capacity history ≠ [] := by
  refine ⟨List.drop_suffix _ _, ?_⟩
  have hpos := List.length_pos_iff.mpr hne
  rw [trimHistory, ne_eq, List.drop_eq_nil_iff]
  omega

/-- A new sample joins the log; the history is what the service made of it. -/
theorem HistoryInv.push (h : HistoryInv codec service log observed rebase) (x : Sample E D)
    (history : List (Sample E D)) (rebase' : ℕ) (hx : x.sequence = log.length + 1)
    (hsuffix : history <:+ log ++ [x]) (hne : history ≠ [])
    (hlinked : history.IsChain codec.Follows) (hrebase : ∀ y ∈ history, rebase' ≤ y.sequence) :
    HistoryInv codec { service with sequence := log.length + 1, latest := some x, history }
      (log ++ [x]) (some x.encoded) rebase' where
  capacity := h.capacity
  numbered := h.numbered.push hx
  sequence := by simp
  latest := by simp
  suffix := hsuffix
  nonempty := fun _ => hne
  linked := hlinked
  rebased := hrebase
  observed := rfl

/-- Every observation keeps the history invariant, whether or not it publishes. -/
theorem HistoryInv.observe {codec : StatusCodec N E D} {s : StatusSystem E D}
    (h : HistoryInv codec.toDeltaCodec s.service s.log s.observed s.rebase) (fresh : N)
    (forceRebase : Bool) :
    HistoryInv codec.toDeltaCodec (s.observe codec fresh forceRebase).service
      (s.observe codec fresh forceRebase).log (s.observe codec fresh forceRebase).observed
      (s.observe codec fresh forceRebase).rebase := by
  have hlatest := h.latest
  cases hl : s.service.latest with
  | none =>
    have hlog : s.log = [] := by
      rw [hl] at hlatest
      exact List.getLast?_eq_none_iff.mp hlatest.symm
    have hhist : s.service.history = [] := List.suffix_nil.mp (hlog ▸ h.suffix)
    have hobs : StatusService.observe codec s.service fresh forceRebase = ({ s.service with
            sequence := 1, latest := some ⟨1, codec.encode fresh, none⟩,
            history := [⟨1, codec.encode fresh, none⟩] }, true) := by
      simp [StatusService.observe, hl, hhist]
    have hpush := h.push ⟨1, codec.encode fresh, none⟩ [⟨1, codec.encode fresh, none⟩] 1
      (by simp [hlog]) (by simp [hlog]) (by simp)
      (List.isChain_singleton _) (by simp)
    simpa [StatusSystem.observe, hobs, hlog] using hpush
  | some latest =>
    have hlast : s.log.getLast? = some latest := by rw [← hlatest, hl]
    have hseq : s.service.sequence = s.log.length := h.sequence
    cases forceRebase with
    | true =>
      have hpush := h.push ⟨s.log.length + 1, codec.encode fresh, none⟩
        [⟨s.log.length + 1, codec.encode fresh, none⟩] (s.log.length + 1) rfl (List.suffix_append _ _)
        (by simp) (List.isChain_singleton _) (by simp)
      simpa [StatusSystem.observe, StatusService.observe, hl, hseq] using hpush
    | false =>
      cases hmake : codec.make latest.encoded (codec.encode fresh) (s.log.length + 1) with
      | none =>
        have heq := (codec.make_eq_none_iff _ _ _).mp hmake
        have hkeep : HistoryInv codec.toDeltaCodec s.service s.log (some (codec.encode fresh))
            s.rebase := { h with observed := by rw [hl, ← heq]; rfl }
        simpa [StatusSystem.observe, StatusService.observe, hl, hseq, hmake] using hkeep
      | some delta =>
        set x : Sample E D := ⟨s.log.length + 1, codec.encode fresh, some delta⟩ with hxdef
        have htrim := trimHistory_spec h.capacity (List.concat_ne_nil x s.service.history)
        have hfollows : ∀ y ∈ s.service.history.getLast?, codec.toDeltaCodec.Follows y x := by
          intro y hy
          rw [h.history_getLast?, hlast, Option.mem_some_iff] at hy
          subst hy
          exact ⟨by rw [h.numbered.sequence_getLast hlast], delta, rfl, hmake⟩
        have hlinked : (s.service.history ++ [x]).IsChain codec.toDeltaCodec.Follows := by
          refine List.isChain_append.mpr ⟨h.linked, List.isChain_singleton _, ?_⟩
          intro y hy z hz
          simp only [List.head?_cons, Option.mem_some_iff] at hz
          exact hz ▸ hfollows y hy
        have hrebase : ∀ y ∈ s.service.history ++ [x], s.rebase ≤ y.sequence := by
          have hmem : latest ∈ s.service.history :=
            List.mem_of_getLast? (h.history_getLast?.trans hlast)
          have hle : s.rebase ≤ s.log.length :=
            h.numbered.sequence_getLast hlast ▸ h.rebased latest hmem
          intro y hy
          rcases List.mem_append.mp hy with hy | hy
          · exact h.rebased y hy
          · rw [List.mem_singleton.mp hy]
            exact Nat.le_succ_of_le hle
        have hsuffix : s.service.history ++ [x] <:+ s.log ++ [x] := by
          obtain ⟨front, hfront⟩ := h.suffix
          exact ⟨front, by rw [← List.append_assoc, hfront]⟩
        have hpush := h.push x (trimHistory s.service.replayCapacity (s.service.history ++ [x]))
          s.rebase rfl (htrim.1.trans hsuffix) htrim.2 (hlinked.suffix htrim.1)
          (fun y hy => hrebase y (htrim.1.subset hy))
        simpa [StatusSystem.observe, StatusService.observe, hl, hseq, hmake] using hpush

theorem selectStatusHistory_getLast? (history : List (Sample E D)) (anchor : ℕ) (includeReplay : Bool) :
    (selectStatusHistory history anchor includeReplay).entries.getLast? = history.getLast? := by
  simp only [selectStatusHistory]
  split_ifs with h
  · exact getLast?_of_suffix (List.dropWhile_suffix _) h.2.2
  · cases history.getLast? <;> rfl

theorem anchorRetained_iff (history : List (Sample E D)) (anchor : ℕ) (includeReplay : Bool) :
    (selectStatusHistory history anchor includeReplay).anchorRetained = true ↔
      ∃ x ∈ history, x.sequence = anchor := by
  simp [selectStatusHistory, List.dropWhile_eq_nil_iff]

theorem selectStatusHistory_replay {anchor : ℕ} (h0 : anchor ≠ 0)
    (h : (selectStatusHistory history anchor true).anchorRetained = true) :
    ∃ first rest, (selectStatusHistory history anchor true).entries = first :: rest ∧
      first :: rest <:+ history ∧ first.sequence = anchor := by
  have hne : history.dropWhile (·.sequence ≠ anchor) ≠ [] := by
    simpa [selectStatusHistory] using h
  obtain ⟨first, rest, hfound⟩ := List.exists_cons_of_ne_nil hne
  refine ⟨first, rest, ?_, ?_, ?_⟩
  · simp only [selectStatusHistory, hfound]
    simp [h0]
  · rw [← hfound]
    exact List.dropWhile_suffix _
  · have hhead := List.head_dropWhile_not (fun x : Sample E D => decide (x.sequence ≠ anchor)) hne
    have hfirst : (history.dropWhile (·.sequence ≠ anchor)).head hne = first :=
      (List.head_eq_iff_head?_eq_some hne).mpr (by rw [hfound]; rfl)
    rw [hfirst] at hhead
    simpa using hhead

namespace StatusReactor

/-- `r'` differs from `r` at most in its flags, and is no less terminated. -/
structure Keeps (r r' : StatusReactor E D) : Prop where
  after : r'.after = r.after
  initialWritten : r'.initialWritten = r.initialWritten
  cursor : r'.cursor = r.cursor
  previous : r'.previous = r.previous
  writingSample : r.writeFinish.writeInFlight = true → r'.writingSample = r.writingSample
  writeInFlight : r'.writeFinish.writeInFlight = r.writeFinish.writeInFlight
  terminated : r.writeFinish.terminationRequested = true →
    r'.writeFinish.terminationRequested = true

variable {r : StatusReactor E D}

theorem Keeps.rfl : Keeps r r :=
  ⟨Eq.refl _, Eq.refl _, Eq.refl _, Eq.refl _, fun _ => Eq.refl _, Eq.refl _, id⟩

theorem Keeps.trans {r' r'' : StatusReactor E D} (h : Keeps r r') (h' : Keeps r' r'') : Keeps r r'' :=
  ⟨h'.after.trans h.after, h'.initialWritten.trans h.initialWritten, h'.cursor.trans h.cursor,
    h'.previous.trans h.previous,
    fun hw => (h'.writingSample (h.writeInFlight.trans hw)).trans (h.writingSample hw),
    h'.writeInFlight.trans h.writeInFlight, fun ht => h'.terminated (h.terminated ht)⟩

theorem finishIfReady_keeps (r : StatusReactor E D) : Keeps r r.finishIfReady.1 := by
  unfold finishIfReady
  split
  · exact Keeps.rfl
  · rename_i status w htake
    obtain ⟨-, hstatus, rfl⟩ := DeferredWriteFinish.takeFinishStatus_spec htake
    split_ifs
    · exact ⟨rfl, rfl, rfl, rfl, fun _ => rfl, rfl, by simp [DeferredWriteFinish.terminationRequested]⟩
    · exact ⟨rfl, rfl, rfl, rfl, fun _ => rfl, rfl, by simp [DeferredWriteFinish.terminationRequested]⟩

theorem requestFinish_keeps (r : StatusReactor E D) (status : GrpcStatus) :
    Keeps r (r.requestFinish status) := by
  have hasked : Keeps r
      { r with subscribed := false, writeFinish := r.writeFinish.requestFinish status } :=
    ⟨rfl, rfl, rfl, rfl, fun _ => rfl, by simp, by simp⟩
  exact hasked.trans (finishIfReady_keeps _)

@[simp] theorem requestFinish_terminated (r : StatusReactor E D) (status : GrpcStatus) :
    (r.requestFinish status).writeFinish.terminationRequested = true :=
  (finishIfReady_keeps _).terminated (by simp)

/-- Scheduling a wake leaves one scheduled, unless the stream is on its way out. -/
theorem scheduleWake_spec (r : StatusReactor E D) (accepted : Bool) : Keeps r (r.scheduleWake accepted) ∧
      ((r.scheduleWake accepted).writeFinish.terminationRequested = true ∨
        ((r.scheduleWake accepted).gate = r.gate ∧ (r.scheduleWake accepted).subscribed = r.subscribed ∧
          (r.gate ≠ .opened ∨ (r.scheduleWake accepted).wakeScheduled = true))) := by
  unfold scheduleWake
  split_ifs with h haccepted
  · refine ⟨Keeps.rfl, ?_⟩
    rcases h with h | h | h
    · exact .inl h
    · exact .inr ⟨rfl, rfl, .inl h⟩
    · exact .inr ⟨rfl, rfl, .inr h⟩
  · exact ⟨⟨rfl, rfl, rfl, rfl, fun _ => rfl, rfl, id⟩, .inr ⟨rfl, rfl, .inr rfl⟩⟩
  · exact ⟨requestFinish_keeps r _, .inl (requestFinish_terminated r _)⟩

theorem finishIfReady_cases (r : StatusReactor E D) :
    (r.finishIfReady.2 = true ∧ r.finishIfReady.1.writeFinish.terminationRequested = true) ∨
      r.finishIfReady = (r, false) := by
  unfold finishIfReady
  cases htake : r.writeFinish.takeFinishStatus with
  | none => exact .inr rfl
  | some taken =>
    obtain ⟨-, -, hw⟩ := DeferredWriteFinish.takeFinishStatus_spec htake
    left
    split_ifs <;> simp [hw, DeferredWriteFinish.terminationRequested]

theorem writeDone_spec (r : StatusReactor E D) (ok accepted : Bool) :
    (r.writeDone ok accepted).writeFinish.terminationRequested = true ∨
      (r.writeFinish.terminationRequested = false ∧ r.writeDone ok accepted = ({ r with
              writeFinish := { r.writeFinish with writeInFlight := false }
              previous := r.writingSample
              cursor := (r.writingSample.map (·.sequence)).getD 0
              writingSample := none
              initialWritten := true : StatusReactor E D }).scheduleWake accepted) := by
  set done : StatusReactor E D := { r with writeFinish := r.writeFinish.completeWrite ok } with hdone
  rcases finishIfReady_cases done with ⟨hfin, hterm⟩ | hsame
  · left
    simpa [writeDone, ← hdone, hfin] using hterm
  · cases ok with
    | false =>
      left
      have hterm : done.writeFinish.terminationRequested = true := by
        cases ht : r.writeFinish.terminalStatus <;>
          simp [hdone, DeferredWriteFinish.completeWrite, DeferredWriteFinish.terminationRequested, ht]
      simpa [writeDone, ← hdone, hsame] using hterm
    | true =>
      have hw : done.writeFinish = { r.writeFinish with writeInFlight := false } := by
        simp [hdone, DeferredWriteFinish.completeWrite]
      have hnext : r.writeDone true accepted = ({ r with
              writeFinish := { r.writeFinish with writeInFlight := false }
              previous := r.writingSample
              cursor := (r.writingSample.map (·.sequence)).getD 0
              writingSample := none
              initialWritten := true : StatusReactor E D }).scheduleWake accepted := by
        simp only [writeDone, ← hdone, hsame, ← hw]
        simp [hdone]
      cases hterm : r.writeFinish.terminationRequested with
      | false => exact .inr ⟨rfl, hnext⟩
      | true =>
        left
        rw [hnext]
        exact (scheduleWake_spec _ accepted).1.terminated hterm

theorem writeDone_frame (r : StatusReactor E D) (ok accepted : Bool) :
    (r.writeDone ok accepted).after = r.after ∧
      (r.writeDone ok accepted).writeFinish.writeInFlight = false := by
  have hfinish := finishIfReady_keeps { r with writeFinish := r.writeFinish.completeWrite ok }
  simp only [writeDone]
  split_ifs
  · exact ⟨hfinish.after, hfinish.writeInFlight⟩
  · exact ⟨(scheduleWake_spec _ accepted).1.after.trans hfinish.after,
      (scheduleWake_spec _ accepted).1.writeInFlight.trans hfinish.writeInFlight⟩

end StatusReactor

theorem StatusSystem.observe_frame (codec : StatusCodec N E D) (s : StatusSystem E D) (fresh : N)
    (forceRebase : Bool) :
    (s.observe codec fresh forceRebase).reactor = s.reactor ∧
      (s.observe codec fresh forceRebase).stage = s.stage ∧
      (s.observe codec fresh forceRebase).emissions = s.emissions ∧
      (s.observe codec fresh forceRebase).wakeRunning = s.wakeRunning ∧
      (s.observe codec fresh forceRebase).callbackPending = s.callbackPending ∧
      s.log ⊆ (s.observe codec fresh forceRebase).log ∧
      ((s.observe codec fresh forceRebase).publishPending = true ∨
        ((s.observe codec fresh forceRebase).publishPending = s.publishPending ∧
          (s.observe codec fresh forceRebase).service.latest = s.service.latest)) := by
  have hsame : (s.service.observe codec fresh forceRebase).2 = false →
      (s.service.observe codec fresh forceRebase).1 = s.service := by
    cases hl : s.service.latest with
    | none => simp [StatusService.observe, hl]
    | some latest =>
      cases forceRebase with
      | true => simp [StatusService.observe, hl]
      | false =>
        cases hm : codec.make latest.encoded (codec.encode fresh) (s.service.sequence + 1) <;>
          simp [StatusService.observe, hl, hm]
  by_cases hpub : (s.service.observe codec fresh forceRebase).2 = true
  · simp [StatusSystem.observe, hpub]
  · simp [StatusSystem.observe, hpub, hsame (by simpa using hpub)]

end LinuxcncCtrl
