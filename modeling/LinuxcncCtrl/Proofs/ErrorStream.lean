import LinuxcncCtrl.Sanity.ErrorStream

/-! The error stream has no gaps. A reactor that is free to write has as its cursor the last sequence it
wrote, or the one it was opened with, and a wake has been run since the ring last changed or is still
to come. -/

namespace LinuxcncCtrl

open Lib

variable {E : Type}

structure WrittenErrors (afterSequence : UInt64) (published : List E)
    (written : List (ErrorWrite E)) : Prop where
  consecutive : ∃ first, Consecutive ErrorWrite.sequence first written ∧
    (afterSequence ≠ 0 → first = afterSequence.toNat + 1)
  own : ∀ write ∈ written, 0 < write.sequence ∧
    published[write.sequence - 1]? = some write.event
  oldest : afterSequence = 0 → ∀ write ∈ written.head?, write.sequence = write.oldest

namespace ErrorStream

variable {stream stream' : ErrorStream E}

/-- What holds whether or not a wake is still to come. -/
structure Base (stream : ErrorStream E) : Prop where
  window : stream.ring.Window stream.published
  written : WrittenErrors stream.afterSequence stream.published stream.written
  orderly : stream.reactor.Orderly
  absent : stream.stage = .absent → stream.reactor = {} ∧ stream.written = []
  constructing : stream.stage = .constructing → stream.reactor.subscribed = false
  resting : stream.stage ≠ .absent → stream.reactor.Ready → stream.reactor.cursor + 1 = stream.next
  flying : stream.reactor.writeFinish.writeInFlight = true → stream.stage ≠ .absent ∧
    stream.written ≠ [] ∧ stream.reactor.writingSequence + 1 = stream.next
  subscribed : stream.stage = .subscribed ∨ stream.stage = .running →
    stream.reactor.writeFinish.terminalStatus = none → stream.reactor.subscribed = true
  behind : stream.interrupted = false → ∀ status ∈ stream.reactor.writeFinish.terminalStatus,
    status = fellBehind ∧ (stream.next < 2 ^ 64 → stream.Discarded)

/-- A reactor that could write and has something to look at has a wake to come. -/
structure Inv (stream : ErrorStream E) : Prop where
  base : stream.Base
  fresh : stream.stage = .running → stream.reactor.Ready →
    0 < stream.notifying ∨ stream.ring.after stream.reactor.cursor = {}

def wrote (stream : ErrorStream E) (entry : SequencedEntry E) : ErrorStream E :=
  { stream with
    reactor := { stream.reactor with
      writingSequence := entry.sequence
      writeFinish := { stream.reactor.writeFinish with writeInFlight := true } }
    written := stream.written ++ [⟨entry.sequence, entry.event, stream.ring.oldest⟩] }

inductive Woken (stream : ErrorStream E) : ErrorStream E → Prop
  | idle (h : stream.reactor.Ready → stream.ring.after stream.reactor.cursor = {}) :
      Woken stream stream
  | behind (hready : stream.reactor.Ready)
      (hbehind : (stream.ring.after stream.reactor.cursor).behind = true) :
      Woken stream { stream with reactor := stream.reactor.requestFinish fellBehind }
  | wrote (hready : stream.reactor.Ready) {entry : SequencedEntry E}
      {rest : List (SequencedEntry E)}
      (hentry : stream.ring.after stream.reactor.cursor = { entries := entry :: rest }) :
      Woken stream (stream.wrote entry)

theorem wake_woken (stream : ErrorStream E) : Woken stream stream.wake := by
  unfold wake
  dsimp only
  split_ifs with hstopped hbehind
  · refine .idle fun hready => ?_
    rcases hstopped with hwriting | hfinishing | hgate
    · cases hwriting.symm.trans hready.1
    · cases hfinishing.symm.trans hready.2.1
    · exact absurd hready.2.2 hgate
  all_goals
    obtain ⟨hwriting, hfinishing, hgate⟩ : stream.reactor.writeFinish.writeInFlight = false ∧
        stream.reactor.writeFinish.terminationRequested = false ∧ stream.reactor.gate = .opened := by
      simpa only [not_or, Bool.not_eq_true, not_not] using hstopped
  · exact .behind ⟨hwriting, hfinishing, hgate⟩ hbehind
  · have hafter := (stream.ring.after_cases stream.reactor.cursor).resolve_left hbehind
    cases hentries : (stream.ring.after stream.reactor.cursor).entries with
    | nil =>
      rw [hentries] at hafter
      exact .idle fun _ => hafter
    | cons entry rest =>
      rw [hentries] at hafter
      have hstart := DeferredWriteFinish.tryStartWrite_eq_some.mpr ⟨hwriting, hfinishing, rfl⟩
      simp only [hstart]
      exact .wrote ⟨hwriting, hfinishing, hgate⟩ hafter

theorem Base.one_lt_next (h : stream.Base)
    (hbegun : stream.afterSequence ≠ 0 ∨ stream.written ≠ []) : 1 < stream.next := by
  unfold next
  cases hlast : stream.written.getLast? with
  | none =>
    have hafter := hbegun.resolve_right (not_not.mpr (List.getLast?_eq_none_iff.mp hlast))
    have hpositive : 0 < stream.afterSequence.toNat :=
      Nat.pos_of_ne_zero fun hzero => hafter (UInt64.toNat_inj.mp hzero)
    exact Nat.succ_lt_succ hpositive
  | some write => exact Nat.succ_lt_succ (h.written.own write (List.mem_of_getLast? hlast)).1

variable {entry : SequencedEntry E}

/-- The entry a wake writes is the next one on the stream, or the oldest there is. -/
theorem Base.wrote_entry (h : stream.Base) (hstage : stream.stage ≠ .absent)
    (hready : stream.reactor.Ready) {rest : List (SequencedEntry E)}
    (hentry : stream.ring.after stream.reactor.cursor = { entries := entry :: rest }) :
    entry ∈ stream.ring.entries ∧
      ((stream.afterSequence ≠ 0 ∨ stream.written ≠ []) → entry.sequence = stream.next) ∧
      (stream.afterSequence = 0 → stream.written = [] → entry.sequence = stream.ring.oldest) := by
  have hcursor := h.resting hstage hready
  by_cases hzero : stream.reactor.cursor = 0
  · rw [hzero, h.window.after_zero] at hentry
    have hentries : stream.ring.entries = entry :: rest := congrArg RingReadResult.entries hentry
    refine ⟨hentries ▸ List.mem_cons_self, fun hnext => ?_, fun _ _ => ?_⟩
    · have hlt := h.one_lt_next hnext
      omega
    · unfold SequencedRing.oldest
      rw [hentries]
      rfl
  · obtain ⟨hmem, hsequence⟩ := h.window.after_cons hzero hentry
    refine ⟨hmem, fun _ => hsequence.trans hcursor, fun hafter hnone => ?_⟩
    unfold next at hcursor
    rw [hnone, hafter] at hcursor
    exact absurd (Nat.succ.inj hcursor) hzero

theorem next_wrote (entry : SequencedEntry E) : (stream.wrote entry).next = entry.sequence + 1 := by
  unfold next wrote
  rw [List.getLast?_append_of_ne_nil _ (List.cons_ne_nil _ _)]
  rfl

theorem Base.written_wrote (h : stream.Base) (hmem : entry ∈ stream.ring.entries)
    (hnext : stream.afterSequence ≠ 0 ∨ stream.written ≠ [] → entry.sequence = stream.next)
    (holdest : stream.afterSequence = 0 → stream.written = [] → entry.sequence = stream.ring.oldest) :
    WrittenErrors stream.afterSequence stream.published
      (stream.written ++ [⟨entry.sequence, entry.event, stream.ring.oldest⟩]) := by
  obtain ⟨first, hconsecutive, hfirst⟩ := h.written.consecutive
  refine ⟨?_, ?_, ?_⟩
  · cases hlast : stream.written.getLast? with
    | none =>
      have hnone := List.getLast?_eq_none_iff.mp hlast
      refine ⟨entry.sequence, ?_, fun hafter => ?_⟩
      · rw [hnone]
        rfl
      · rw [hnext (.inl hafter), next, hlast]
        rfl
    | some last =>
      refine ⟨first, hconsecutive.append ?_, hfirst⟩
      have hne : stream.written ≠ [] := fun hnil => by
        rw [hnil] at hlast
        cases hlast
      rw [hnext (.inr hne), next, hlast]
      exact hconsecutive.getLast? hlast
  · intro write hwrite
    rcases List.mem_append.mp hwrite with hold | hnew
    · exact h.written.own write hold
    · rw [List.mem_singleton.mp hnew]
      exact ⟨h.window.sequence_pos hmem, h.window.event entry hmem⟩
  · intro hafter write hwrite
    cases hwritten : stream.written with
    | nil =>
      have hhead : (⟨entry.sequence, entry.event, stream.ring.oldest⟩ : ErrorWrite E) = write := by
        rw [hwritten] at hwrite
        exact Option.some.inj hwrite
      rw [← hhead]
      exact holdest hafter hwritten
    | cons head rest =>
      apply h.written.oldest hafter write
      rw [hwritten] at hwrite ⊢
      exact hwrite

theorem Base.inv_wake (h : stream.Base) (hstage : stream.stage ≠ .absent) : stream.wake.Inv := by
  have hwoken := wake_woken stream
  generalize stream.wake = woken at hwoken ⊢
  cases hwoken with
  | idle hidle => exact ⟨h, fun _ hready => .inr (hidle hready)⟩
  | behind hready hbehind =>
    obtain ⟨horderly, hstatus, hwriting, -, hsubscribed⟩ :=
      h.orderly.requestFinish hready.2.2 fellBehind
    rw [hready.terminalStatus, Option.none_or] at hstatus
    have hbusy := h.orderly.not_ready hready.2.2 fellBehind
    refine ⟨⟨h.window, h.written, horderly, fun habsent => absurd habsent hstage,
      fun _ => hsubscribed, fun _ hagain => absurd hagain hbusy, fun hflying => ?_,
      fun _ hnone => ?_, fun _ status hsome => ?_⟩, fun _ hagain => absurd hagain hbusy⟩
    · exact absurd (hflying.symm.trans (hwriting.trans hready.1)) (by decide)
    · cases hnone.symm.trans hstatus
    · refine ⟨Option.some.inj (hsome.symm.trans hstatus), fun hlt => ?_⟩
      have hcursor := h.resting hstage hready
      obtain ⟨hzero, front, hfront, hgone⟩ := SequencedRing.behind_after hbehind
      refine ⟨?_, front, hfront, ?_⟩
      · by_contra hfirst
        obtain ⟨hafter, hnone⟩ := not_or.mp hfirst
        rw [next, not_not.mp hnone, not_not.mp hafter] at hcursor
        exact hzero (Nat.succ.inj hcursor)
      · rw [hcursor] at hgone
        exact Nat.mod_eq_of_lt hlt ▸ hgone
  | wrote hready hentry =>
    rename_i entry rest
    obtain ⟨hmem, hnext, holdest⟩ := h.wrote_entry hstage hready hentry
    have hbusy : ¬ (stream.wrote entry).reactor.Ready := fun hagain => absurd hagain.1 nofun
    refine ⟨⟨h.window, h.written_wrote hmem hnext holdest, ⟨h.orderly.started, fun _ _ => rfl,
      fun hclosed => absurd hready.2.2 hclosed⟩, fun habsent => absurd habsent hstage,
      h.constructing, fun _ hagain => absurd hagain hbusy,
      fun _ => ⟨hstage, by simp [ErrorStream.wrote], (next_wrote entry).symm⟩, h.subscribed,
      fun _ _ hsome => ?_⟩, fun _ hagain => absurd hagain hbusy⟩
    cases hready.terminalStatus.symm.trans hsome

theorem Inv.interrupt (h : stream.Inv) {stage : WatchStage} (hstage : stage ≠ .absent)
    (hgate : stream.reactor.gate = .opened) (status : GrpcStatus) :
    ({ stream with
      stage, reactor := stream.reactor.requestFinish status, interrupted := true } :
      ErrorStream E).Inv := by
  have hbase := h.base
  obtain ⟨horderly, hstatus, hwriting, hsequence, hsubscribed⟩ :=
    hbase.orderly.requestFinish hgate status
  have hsome : (stream.reactor.requestFinish status).writeFinish.terminalStatus ≠ none := by
    rw [hstatus]
    cases stream.reactor.writeFinish.terminalStatus <;> nofun
  have hbusy := hbase.orderly.not_ready hgate status
  refine ⟨⟨hbase.window, hbase.written,
    horderly, fun habsent => absurd habsent hstage, fun _ => hsubscribed,
    fun _ hready => absurd hready hbusy,
    fun hflying => ⟨hstage, ?_⟩, fun _ hnone => absurd hnone hsome, nofun⟩,
    fun _ hready => absurd hready hbusy⟩
  obtain ⟨-, hwritten, hnext⟩ := hbase.flying (hwriting.symm.trans hflying)
  exact ⟨hwritten, hsequence ▸ hnext⟩

theorem Inv.invoke (h : stream.Inv) (hstage : stream.stage ≠ .absent) (status : GrpcStatus) : ({ stream with
      reactor := stream.reactor.invoke fun reactor => reactor.requestFinish status
      interrupted := true } : ErrorStream E).Inv := by
  unfold ErrorReactor.invoke
  split_ifs with hgate
  · exact h.interrupt hstage hgate status
  · have hbase := h.base
    exact ⟨{ hbase with behind := nofun }, h.fresh⟩

theorem Inv.publish (h : stream.Inv) (event : E) : ({ stream with
      ring := stream.ring.publish event
      published := stream.published ++ [event]
      notifying := stream.notifying + 1 } : ErrorStream E).Inv := by
  have hbase := h.base
  refine ⟨⟨hbase.window.publish event, ⟨hbase.written.consecutive, fun write hwrite => ?_,
    hbase.written.oldest⟩, hbase.orderly, hbase.absent, hbase.constructing, hbase.resting, hbase.flying,
    hbase.subscribed, fun hinterrupted status hstatus => ?_⟩, fun _ _ => .inl (Nat.succ_pos _)⟩
  · obtain ⟨hpositive, hown⟩ := hbase.written.own write hwrite
    refine ⟨hpositive, ?_⟩
    rw [List.getElem?_append_left (List.getElem?_eq_some_iff.mp hown).1, hown]
  · obtain ⟨hbehind, hlost⟩ := hbase.behind hinterrupted status hstatus
    refine ⟨hbehind, fun hlt => ?_⟩
    obtain ⟨hbegun, front, hfront, hgone⟩ := hlost hlt
    obtain ⟨front', hfront', hle⟩ := hbase.window.front_publish hfront event
    exact ⟨hbegun, front', hfront', hgone.trans_le hle⟩

/-! The streams on which `notify`, `firstWake` and `writeDone` run a wake. -/

def popped (stream : ErrorStream E) : ErrorStream E :=
  { stream with notifying := stream.notifying - 1 }

def opened (stream : ErrorStream E) : ErrorStream E :=
  { stream with stage := .running }

def advanced (stream : ErrorStream E) : ErrorStream E :=
  { stream with
    reactor := { stream.reactor with
      cursor := stream.reactor.writingSequence
      writeFinish := { stream.reactor.writeFinish with writeInFlight := false } } }

theorem Base.popped (h : stream.Base) : stream.popped.Base :=
  { h with }

theorem Base.opened (h : stream.Base) (hstage : stream.stage = .subscribed) : stream.opened.Base :=
  ⟨h.window, h.written, h.orderly, nofun, nofun, fun _ => h.resting (hstage.trans_ne (by decide)),
    fun hflying => ⟨nofun, (h.flying hflying).2⟩, fun _ => h.subscribed (.inl hstage), h.behind⟩

section

variable (h : stream.Base) (hwriting : stream.reactor.writeFinish.writeInFlight = true)
  (hgate : stream.reactor.gate = .opened)

include h hwriting hgate

theorem Base.advanced (hnone : stream.reactor.writeFinish.terminalStatus = none) : stream.advanced.Base := by
  obtain ⟨hstage, -, hsequence⟩ := h.flying hwriting
  refine ⟨h.window, h.written, ⟨fun _ => h.orderly.started hgate, fun _ hsome => ?_,
    fun hclosed => absurd hgate hclosed⟩, fun habsent => absurd habsent hstage, h.constructing,
    fun _ _ => hsequence, nofun, h.subscribed, h.behind⟩
  cases hnone ▸ hsome

/-- A write that has ended is followed by a wake, or by the finish that was waiting for it. -/
theorem Base.writeDone_cases (ok : Bool) :
    stream.advanced.Base ∧ stream.writeDone ok = stream.advanced.wake ∨
      ∃ reactor interrupted, stream.writeDone ok = { stream with reactor, interrupted } ∧
        ¬ reactor.Ready ∧ (stream.writeDone ok).Inv := by
  have hstarted := h.orderly.started hgate
  have hstage := (h.flying hwriting).1
  unfold ErrorStream.writeDone
  dsimp only
  cases hstatus : (stream.reactor.writeFinish.completeWrite ok).terminalStatus with
  | none =>
    obtain ⟨rfl, hnone⟩ : ok = true ∧ stream.reactor.writeFinish.terminalStatus = none := by
      unfold DeferredWriteFinish.completeWrite at hstatus
      cases ok <;> cases hold : stream.reactor.writeFinish.terminalStatus <;> simp_all
    left
    refine ⟨h.advanced hwriting hgate hnone, ?_⟩
    rw [ErrorReactor.finishIfReady_none (by exact hstatus)]
    dsimp only
    rw [if_neg (by decide), Bool.not_true, Bool.or_false]
    rfl
  | some status =>
    right
    rw [ErrorReactor.finishIfReady_some (by exact hgate) (by exact hstarted) (by rfl) (by exact hstatus)]
    rw [if_pos (.inl rfl)]
    refine ⟨_, _, rfl, fun hready => absurd hready.2.2 nofun,
      ⟨h.window, h.written, ⟨nofun, nofun, fun _ => ⟨?_, rfl, hstatus.symm⟩⟩,
      fun habsent => absurd habsent hstage, fun _ => rfl, fun _ hready => absurd hready.2.2 nofun,
      nofun, fun _ hnone => ?_, fun hinterrupted => ?_⟩, fun _ hready => absurd hready.2.2 nofun⟩
    · exact Option.isSome_iff_exists.mpr ⟨status, hstatus⟩
    · cases hstatus.symm.trans hnone
    · obtain ⟨hold, hok⟩ := Bool.or_eq_false_iff.mp hinterrupted
      obtain rfl : ok = true := by simpa using hok
      exact h.behind hold

end

theorem Base.listening (h : stream.Base) (hsubscribed : stream.reactor.subscribed = true) :
    stream.stage = .subscribed ∨ stream.stage = .running := by
  cases hstage : stream.stage with
  | absent =>
    rw [(h.absent hstage).1] at hsubscribed
    cases hsubscribed
  | constructing => exact absurd ((h.constructing hstage).symm.trans hsubscribed) (by decide)
  | subscribed => exact .inl rfl
  | running => exact .inr rfl

theorem present_of_listening (h : stream.stage = .subscribed ∨ stream.stage = .running) :
    stream.stage ≠ .absent := by
  rcases h with heq | heq <;> exact heq.trans_ne (by decide)

variable {action : ErrorAction E}

/-- What a step does: it publishes, runs a wake, calls a listener that is gone, ends the stream or lets it end,
or opens it. A wake finds the reactor as it was, or a write behind it. -/
inductive Advances (stream : ErrorStream E) (action : ErrorAction E) : ErrorStream E → Prop
  | published (event : E) (haction : action = .publish event) : Advances stream action { stream with
      ring := stream.ring.publish event
      published := stream.published ++ [event]
      notifying := stream.notifying + 1 }
  | woken (stage : WatchStage) (reactor : ErrorReactor) (notifying : ℕ) (hle : notifying ≤ stream.notifying)
      (hbase : ({ stream with stage, reactor, notifying } : ErrorStream E).Base) (hstage : stage ≠ .absent)
      (hreactor : stream.written ≠ [] ∧ stage = stream.stage ∨ reactor = stream.reactor ∧
        (stage = .subscribed ∨ stage = .running) ∧ (stream.stage = .subscribed ∨ stream.stage = .running)) :
      Advances stream action ({ stream with stage, reactor, notifying } : ErrorStream E).wake
  | unheard (hsubscribed : stream.reactor.subscribed ≠ true) : Advances stream action stream.popped
  | ended (stage : WatchStage) (reactor : ErrorReactor) (interrupted : Bool) (hbusy : ¬ reactor.Ready)
      (hstage : stage = stream.stage ∨ stage = .running)
      (hinv : ({ stream with stage, reactor, interrupted } : ErrorStream E).Inv) :
      Advances stream action { stream with stage, reactor, interrupted }
  | watched (hstage : stream.stage = .absent) : Advances stream action { stream with
      stage := .constructing
      reactor := { stream.reactor with cursor := stream.afterSequence.toNat } }
  | subscribed (hstage : stream.stage = .constructing) : Advances stream action { stream with
      stage := .subscribed
      openedAt := stream.published.length
      reactor := { stream.reactor with subscribed := true } }
  | same : Advances stream action stream

theorem Inv.advances (h : stream.Inv) (hstep : stream.step action = some stream') :
    stream.Advances action stream' := by
  have hbase := h.base
  cases action with
  | publish event =>
    cases hstep
    exact .published event rfl
  | notify =>
    obtain ⟨-, ⟨⟩⟩ := Option.ite_none_left_eq_some.mp hstep
    split_ifs with hsubscribed
    · have hstage := hbase.listening hsubscribed
      exact .woken _ _ _ (Nat.sub_le _ _) hbase.popped (present_of_listening hstage) (.inr ⟨rfl, hstage, hstage⟩)
    · exact .unheard hsubscribed
  | watch registered admitted =>
    obtain ⟨hguard, hsome⟩ := Option.ite_none_left_eq_some.mp hstep
    have habsent := Decidable.of_not_not hguard
    have hgate : stream.reactor.gate = .opened := by rw [(hbase.absent habsent).1]
    split_ifs at hsome
    · cases hsome
      exact .ended _ _ _ (hbase.orderly.not_ready hgate _) (.inr rfl) (h.interrupt (by decide) hgate _)
    · cases hsome
      exact .ended _ _ _ (hbase.orderly.not_ready hgate _) (.inr rfl) (h.interrupt (by decide) hgate _)
    · cases hsome
      exact .watched habsent
  | subscribe =>
    obtain ⟨hstage, ⟨⟩⟩ := Option.ite_none_right_eq_some.mp hstep
    exact .subscribed hstage
  | firstWake =>
    obtain ⟨hstage, ⟨⟩⟩ := Option.ite_none_right_eq_some.mp hstep
    exact .woken _ _ _ le_rfl (hbase.opened hstage) nofun (.inr ⟨rfl, .inr rfl, .inl hstage⟩)
  | writeDone ok =>
    obtain ⟨hwriting, ⟨⟩⟩ := Option.ite_none_right_eq_some.mp hstep
    obtain ⟨hpresent, hwritten, -⟩ := hbase.flying hwriting
    split_ifs with hgate
    · rcases hbase.writeDone_cases hwriting hgate ok with
        ⟨hadvanced, heq⟩ | ⟨reactor, interrupted, heq, hbusy, hinv⟩
      · rw [heq]
        exact .woken _ _ _ le_rfl hadvanced hpresent (.inl ⟨hwritten, rfl⟩)
      · rw [heq] at hinv ⊢
        exact .ended _ _ _ hbusy (.inl rfl) hinv
    · exact .same
  | cancel =>
    obtain ⟨hstage, ⟨⟩⟩ := Option.ite_none_left_eq_some.mp hstep
    exact .ended _ _ _ (hbase.orderly.invoke_not_ready _) (.inl rfl) (h.invoke hstage _)
  | shutdown =>
    obtain ⟨hstage, ⟨⟩⟩ := Option.ite_none_left_eq_some.mp hstep
    exact .ended _ _ _ (hbase.orderly.invoke_not_ready _) (.inl rfl) (h.invoke hstage _)
  | onDone =>
    obtain ⟨⟨hgate, hstage⟩, ⟨⟩⟩ := Option.ite_none_right_eq_some.mp hstep
    have hfinished := hbase.orderly.finished (hgate.trans_ne (by decide))
    refine .ended _ _ _ (fun hready => absurd hready.2.2 nofun) (.inl rfl) ⟨⟨hbase.window, hbase.written,
      ⟨nofun, nofun, fun _ => hfinished⟩, fun habsent => absurd (hstage.symm.trans habsent) nofun,
      fun _ => rfl, fun _ hready => absurd hready.2.2 nofun, hbase.flying, fun _ hnone => ?_, hbase.behind⟩,
      fun _ hready => absurd hready.2.2 nofun⟩
    cases hnone ▸ hfinished.1

theorem wake_afterSequence (stream : ErrorStream E) : stream.wake.afterSequence = stream.afterSequence := by
  have hwoken := wake_woken stream
  generalize stream.wake = woken at hwoken ⊢
  cases hwoken <;> rfl

theorem Advances.inv (hadvances : stream.Advances action stream') (h : stream.Inv) :
    stream'.Inv ∧ stream'.afterSequence = stream.afterSequence := by
  have hbase := h.base
  cases hadvances with
  | published event _ => exact ⟨h.publish event, rfl⟩
  | woken stage reactor notifying _ hwoken hstage _ => exact ⟨hwoken.inv_wake hstage, wake_afterSequence _⟩
  | unheard hsubscribed =>
    refine ⟨⟨hbase.popped, fun hrunning hready => ?_⟩, rfl⟩
    exact absurd (hbase.subscribed (.inr hrunning) hready.terminalStatus) hsubscribed
  | ended stage reactor interrupted _ _ hinv => exact ⟨hinv, rfl⟩
  | watched habsent =>
    obtain ⟨hreactor, hwritten⟩ := hbase.absent habsent
    refine ⟨⟨⟨hbase.window, hbase.written, { hbase.orderly with }, nofun, fun _ => ?_, fun _ _ => ?_,
      fun hflying => ?_, ?_, hbase.behind⟩, nofun⟩, rfl⟩
    · rw [hreactor]
    · rw [next, hwritten]
      rfl
    · exact absurd habsent (hbase.flying hflying).1
    · rintro (hsubscribed | hrunning)
      · cases hsubscribed
      · cases hrunning
  | subscribed hstage =>
    exact ⟨⟨⟨hbase.window, hbase.written, { hbase.orderly with }, nofun, nofun,
      fun _ => hbase.resting (hstage.trans_ne (by decide)),
      fun hflying => ⟨nofun, (hbase.flying hflying).2⟩, fun _ _ => rfl, hbase.behind⟩, nofun⟩, rfl⟩
  | same => exact ⟨h, rfl⟩

theorem Base.wake_discarded (h : stream.Base) (hstage : stream.stage ≠ .absent)
    (hdiscarded : stream.Discarded) : stream.wake.written = stream.written := by
  have hwoken := wake_woken stream
  generalize stream.wake = woken at hwoken ⊢
  cases hwoken with
  | idle _ => rfl
  | behind _ _ => rfl
  | wrote hready hentry =>
    obtain ⟨hmem, hnext, -⟩ := h.wrote_entry hstage hready hentry
    obtain ⟨hbegun, front, hfront, hgone⟩ := hdiscarded
    have hle := h.window.front_le hfront hmem
    rw [hnext hbegun] at hle
    exact absurd hgone (Nat.not_lt.mpr hle)

theorem Advances.discarded (h : stream.Advances action stream') (hdiscarded : stream.Discarded) :
    stream'.written = stream.written := by
  cases h with
  | woken stage reactor notifying _ hbase hstage _ => exact hbase.wake_discarded hstage hdiscarded
  | _ => rfl

theorem Base.ready (h : stream.Base) (hwriting : stream.reactor.writeFinish.writeInFlight = false)
    (hgate : stream.reactor.gate = .opened) : stream.reactor.Ready := by
  have hnone : stream.reactor.writeFinish.terminalStatus = none := by
    by_contra hsome
    have hbusy := h.orderly.pending hgate (Option.isSome_iff_ne_none.mpr hsome)
    cases hbusy.symm.trans hwriting
  refine ⟨hwriting, ?_, hgate⟩
  rw [DeferredWriteFinish.terminationRequested, hnone, h.orderly.started hgate]
  rfl

/-- Once nothing is under way, the stream has ended over the gap. -/
theorem Inv.settled_discarded (h : stream.Inv) (hdiscarded : stream.Discarded)
    (hsettled : stream.Settled) (hinterrupted : stream.interrupted = false) :
    stream.reactor.finished = some fellBehind := by
  have hbase := h.base
  obtain ⟨hrunning, hnotifying, hwriting⟩ := hsettled
  by_cases hgate : stream.reactor.gate = .opened
  · exfalso
    have hready := hbase.ready hwriting hgate
    have hcursor := hbase.resting (hrunning.trans_ne (by decide)) hready
    obtain ⟨hbegun, front, hfront, hgone⟩ := hdiscarded
    have hlt := hbase.one_lt_next hbegun
    have hbehind : (stream.ring.after stream.reactor.cursor).behind = true :=
      SequencedRing.after_behind (by omega) hfront (by omega)
    rcases h.fresh hrunning hready with hpositive | hempty
    · omega
    · rw [hempty] at hbehind
      cases hbehind
  · obtain ⟨hsome, -, hfinished⟩ := hbase.orderly.finished hgate
    obtain ⟨status, hstatus⟩ := Option.isSome_iff_exists.mp hsome
    rw [hfinished, hstatus, (hbase.behind hinterrupted status hstatus).1]

/-- A stream that has not lost its next error goes on, and has written all that is retained. -/
theorem Inv.settled_retained (h : stream.Inv) (hsettled : stream.Settled) (hinterrupted : stream.interrupted = false)
    (hnext : stream.next < 2 ^ 64) (hretained : ¬ stream.Discarded) :
    stream.reactor.Ready ∧ ∀ entry ∈ stream.ring.entries, entry.sequence < stream.next := by
  have hbase := h.base
  obtain ⟨hrunning, hnotifying, hwriting⟩ := hsettled
  have hgate : stream.reactor.gate = .opened := by
    by_contra hclosed
    obtain ⟨status, hstatus⟩ := Option.isSome_iff_exists.mp (hbase.orderly.finished hclosed).1
    exact hretained ((hbase.behind hinterrupted status hstatus).2 hnext)
  have hready := hbase.ready hwriting hgate
  refine ⟨hready, fun entry hentry => ?_⟩
  have hempty := (h.fresh hrunning hready).resolve_left (by omega)
  rw [← hbase.resting (hrunning.trans_ne (by decide)) hready]
  exact Nat.lt_succ_of_le (SequencedRing.after_empty hempty hentry)

/-- With a prompt publisher no error is missed that is published after the stream has subscribed. -/
structure Punctual (stream : ErrorStream E) : Prop where
  prompt : stream.notifying ≤ 1
  early : stream.stage = .absent ∨ stream.stage = .constructing → stream.written = []
  head : stream.afterSequence = 0 → ∀ write ∈ stream.written.head?,
    write.sequence ≤ stream.openedAt + 1
  waiting : stream.afterSequence = 0 → stream.stage = .subscribed ∨ stream.stage = .running →
    stream.reactor.Ready → stream.written = [] →
    stream.published.length ≤ stream.openedAt + stream.notifying

theorem Punctual.wake (h : stream.Base) (hprompt : stream.notifying ≤ 1)
    (hstage : stream.stage = .subscribed ∨ stream.stage = .running)
    (hhead : stream.afterSequence = 0 → ∀ write ∈ stream.written.head?,
      write.sequence ≤ stream.openedAt + 1)
    (hwaiting : stream.afterSequence = 0 → stream.reactor.Ready → stream.written = [] →
      stream.published.length ≤ stream.openedAt + 1) : stream.wake.Punctual := by
  have hpresent := present_of_listening hstage
  have hlate : ¬ (stream.stage = .absent ∨ stream.stage = .constructing) := by
    rcases hstage with heq | heq <;> rw [heq] <;> decide
  have hwoken := wake_woken stream
  generalize stream.wake = woken at hwoken ⊢
  cases hwoken with
  | idle hidle =>
    refine ⟨hprompt, fun hearly => absurd hearly hlate, hhead, fun hafter _ hready hnone => ?_⟩
    have hcursor := h.resting hpresent hready
    rw [next, hnone, hafter] at hcursor
    have hzero : stream.reactor.cursor = 0 := Nat.succ.inj hcursor
    have hempty := hidle hready
    rw [hzero, h.window.after_zero] at hempty
    rw [h.window.empty (congrArg RingReadResult.entries hempty)]
    exact Nat.zero_le _
  | behind hready _ =>
    refine ⟨hprompt, fun hearly => absurd hearly hlate, hhead, fun _ _ hagain => ?_⟩
    exact absurd hagain (h.orderly.not_ready hready.2.2 fellBehind)
  | wrote hready hentry =>
    rename_i entry rest
    refine ⟨hprompt, fun hearly => absurd hearly hlate, fun hafter write hwrite => ?_,
      fun _ _ hagain => absurd hagain.1 nofun⟩
    obtain ⟨hmem, -, -⟩ := h.wrote_entry hpresent hready hentry
    unfold ErrorStream.wrote at hwrite ⊢
    cases hwritten : stream.written with
    | nil =>
      rw [hwritten] at hwrite
      rw [← Option.some.inj hwrite]
      exact (h.window.sequence_le hmem).trans (hwaiting hafter hready hwritten)
    | cons first others =>
      apply hhead hafter write
      rw [hwritten] at hwrite ⊢
      exact hwrite

theorem Punctual.advances (h : stream.Punctual) (hbase : stream.Base) (hprompt : stream.Prompt action)
    (hadvances : stream.Advances action stream') : stream'.Punctual := by
  have hone := h.prompt
  cases hadvances with
  | published event haction =>
    subst haction
    have hzero : stream.notifying = 0 := hprompt
    refine ⟨?_, h.early, h.head, fun hafter hstage hready hnone => ?_⟩
    · show stream.notifying + 1 ≤ 1
      omega
    · have hlength := h.waiting hafter hstage hready hnone
      rw [List.length_append, List.length_singleton]
      dsimp only
      omega
  | woken stage reactor notifying hle hwoken hpresent hreactor =>
    refine Punctual.wake hwoken (hle.trans hone) ?_ h.head fun hafter hready hnone => ?_
    · rcases hreactor with ⟨hwritten, rfl⟩ | ⟨-, hstage, -⟩
      · cases hstage : stream.stage with
        | absent => exact absurd hstage hpresent
        | constructing => exact absurd (h.early (.inr hstage)) hwritten
        | subscribed => exact .inl rfl
        | running => exact .inr rfl
      · exact hstage
    · rcases hreactor with ⟨hwritten, -⟩ | ⟨rfl, -, hstage⟩
      · exact absurd hnone hwritten
      · exact (h.waiting hafter hstage hready hnone).trans (Nat.add_le_add_left hone _)
  | unheard hsubscribed =>
    refine ⟨(Nat.sub_le _ _).trans hone, h.early, h.head, fun _ hstage hready => ?_⟩
    exact absurd (hbase.subscribed hstage hready.terminalStatus) hsubscribed
  | ended stage reactor interrupted hbusy hstage _ =>
    refine ⟨hone, fun hearly => ?_, h.head, fun _ _ hready => absurd hready hbusy⟩
    rcases hstage with rfl | rfl
    · exact h.early hearly
    · rcases hearly with hearly | hearly <;> cases hearly
  | watched habsent =>
    refine ⟨hone, fun _ => (hbase.absent habsent).2, h.head, fun _ hstage => ?_⟩
    rcases hstage with hstage | hstage <;> cases hstage
  | subscribed hstage =>
    have hnone := h.early (.inr hstage)
    refine ⟨hone, fun _ => hnone, fun _ write hwrite => ?_, fun _ _ _ _ => Nat.le_add_right _ _⟩
    rw [hnone] at hwrite
    cases hwrite
  | same => exact h

theorem inv_initial {capacity : ℕ} (h : 0 < capacity) (afterSequence : UInt64) :
    (initial capacity afterSequence : ErrorStream E).Inv :=
  ⟨⟨SequencedRing.window_nil h, ⟨⟨afterSequence.toNat + 1, .nil, fun _ => rfl⟩, nofun, nofun⟩,
    ⟨fun _ => rfl, nofun, fun hclosed => absurd rfl hclosed⟩, fun _ => ⟨rfl, rfl⟩, nofun,
    fun hpresent => absurd rfl hpresent, nofun,
    fun hlistening => absurd rfl (present_of_listening hlistening), nofun⟩, nofun⟩

theorem punctual_initial (capacity : ℕ) (afterSequence : UInt64) :
    (initial capacity afterSequence : ErrorStream E).Punctual :=
  ⟨Nat.zero_le _, fun _ => rfl, nofun, fun _ hlistening => absurd rfl (present_of_listening hlistening)⟩

/-- The messages of an error stream have consecutive sequences, each with the error published under it.
They begin after the sequence the client gave; without one, at the oldest error that was retained, and
no later than the next error after the stream subscribed if the listeners are called for each error in
turn. Once the next error is discarded nothing more is written, and the stream ends with
RESOURCE_EXHAUSTED; until then, whenever nothing is under way, the stream is free to write and has written
every error that is retained. The cursor 2^64 - 1 is left out: one more wraps. -/
theorem errorStream_gapless {capacity : ℕ} (hcapacity : 0 < capacity) {afterSequence : UInt64}
    {actions : List (ErrorAction E)}
    (hrun : Run ErrorStream.step (initial capacity afterSequence) actions stream) :
    (∃ first, Consecutive ErrorWrite.sequence first stream.written ∧
      (afterSequence ≠ 0 → first = afterSequence.toNat + 1)) ∧
    (∀ write ∈ stream.written, 0 < write.sequence ∧
      stream.published[write.sequence - 1]? = some write.event) ∧
    (afterSequence = 0 → ∀ write ∈ stream.written.head?, write.sequence = write.oldest ∧
      (RunWhere ErrorStream.step Prompt (initial capacity afterSequence) actions stream →
        write.sequence ≤ stream.openedAt + 1)) ∧
    (stream.Discarded →
      (∀ action stream', stream.step action = some stream' → stream'.written = stream.written) ∧
      (stream.Settled → stream.interrupted = false → stream.reactor.finished = some fellBehind)) ∧
    (¬ stream.Discarded → stream.Settled → stream.interrupted = false → stream.next < 2 ^ 64 →
      stream.reactor.Ready ∧ ∀ entry ∈ stream.ring.entries, entry.sequence < stream.next) := by
  obtain ⟨hinv, hafter⟩ : stream.Inv ∧ stream.afterSequence = afterSequence :=
    hrun.invariant (P := fun stream => stream.Inv ∧ stream.afterSequence = afterSequence)
      ⟨inv_initial hcapacity afterSequence, rfl⟩
      fun _ _ _ hstep h => ((h.1.advances hstep).inv h.1).imp_right fun hsame => hsame.trans h.2
  have hwritten := hinv.base.written
  rw [hafter] at hwritten
  refine ⟨hwritten.consecutive, hwritten.own, fun hzero write hwrite =>
    ⟨hwritten.oldest hzero write hwrite, fun hprompt => ?_⟩, fun hdiscarded =>
    ⟨fun _ _ hstep => (hinv.advances hstep).discarded hdiscarded, hinv.settled_discarded hdiscarded⟩,
    fun hretained hsettled hinterrupted hnext => hinv.settled_retained hsettled hinterrupted hnext hretained⟩
  obtain ⟨-, hpunctual⟩ : stream.Inv ∧ stream.Punctual :=
    hprompt.invariant (P := fun stream => stream.Inv ∧ stream.Punctual)
      ⟨inv_initial hcapacity afterSequence, punctual_initial capacity afterSequence⟩
      fun _ _ _ hok hstep h =>
        ⟨((h.1.advances hstep).inv h.1).1, h.2.advances h.1.base hok (h.1.advances hstep)⟩
  exact hpunctual.head (hafter.trans hzero) write hwrite

/-! A ring of two errors, of which a client has the first; three more are published while the second is
being written. -/

def overrunActions : List (ErrorAction ℕ) :=
  [.publish 10, .notify, .publish 20, .notify, .watch true true, .subscribe, .firstWake, .publish 30,
    .notify, .publish 40, .notify, .publish 50, .notify, .writeDone true]

def overrun : ErrorStream ℕ := (exec ErrorStream.step (initial 2 1) overrunActions).getD (initial 2 1)

theorem overrun_run : Run ErrorStream.step (initial 2 1) overrunActions overrun := .of_exec rfl

theorem errorStream_gapless_overrun :
    overrun.written.map ErrorWrite.sequence = [2] ∧ overrun.written.map ErrorWrite.event = [20] ∧
      overrun.Discarded ∧ overrun.Settled ∧ overrun.reactor.finished = some fellBehind := by
  have hdiscarded : overrun.Discarded := ⟨.inl (by decide), ⟨4, 40⟩, rfl, by decide⟩
  have hsettled : overrun.Settled := ⟨rfl, rfl, rfl⟩
  exact ⟨rfl, rfl, hdiscarded, hsettled,
    ((errorStream_gapless (by decide) overrun_run).2.2.2.1 hdiscarded).2 hsettled rfl⟩

end ErrorStream

end LinuxcncCtrl
