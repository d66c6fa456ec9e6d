import LinuxcncCtrl.Proofs.StatusCodec
import LinuxcncCtrl.Proofs.StatusEvents

/-! The status stream keeps its client exact. Every event written leaves the client with the encoding of
the sample the event names, and a stream that has come to rest shows the latest observation. -/

namespace LinuxcncCtrl

open Lib

variable {N E D : Type} {codec : DeltaCodec E D}

namespace StatusSystem

/-- The client shows the newest sample. -/
def Current (codec : DeltaCodec E D) (s : StatusSystem E D) : Prop :=
  ∃ x, s.service.latest = some x ∧ clientStatus codec s.events = some x.encoded

structure LiveInv (codec : DeltaCodec E D) (s : StatusSystem E D) : Prop where
  absent : s.stage = .absent → s.reactor = {} ∧ s.wakeRunning = false ∧ s.emissions = [] ∧
    s.callbackPending = false
  closed : s.reactor.gate ≠ .opened → s.reactor.writeFinish.terminationRequested = true
  subscribed : s.stage = .subscribed ∨ s.stage = .running →
    s.reactor.writeFinish.terminationRequested = false → s.reactor.subscribed = true
  work : s.stage = .running → s.reactor.writeFinish.terminationRequested = false →
    s.Current codec ∨ s.reactor.writeFinish.writeInFlight = true ∨
      s.reactor.wakeScheduled = true ∨ s.wakeRunning = true ∨ s.publishPending = true ∨
      s.callbackPending = true

variable {s : StatusSystem E D} {r : StatusReactor E D}

theorem LiveInv.of_terminated (hstage : s.stage ≠ .absent)
    (h : s.reactor.writeFinish.terminationRequested = true) : LiveInv codec s :=
  ⟨fun hs => absurd hs hstage, fun _ => h, fun _ ht => absurd ht (by simp [h]),
    fun _ ht => absurd ht (by simp [h])⟩

theorem LiveInv.of_scheduleWake {accepted : Bool}
    (hr : s.reactor = r.scheduleWake accepted) (hstage : s.stage ≠ .absent)
    (hclosed : r.gate ≠ .opened → r.writeFinish.terminationRequested = true)
    (hsub : s.stage = .subscribed ∨ s.stage = .running →
      r.writeFinish.terminationRequested = false → r.subscribed = true) : LiveInv codec s := by
  obtain ⟨hkeeps, hspec⟩ := r.scheduleWake_spec accepted
  rw [← hr] at hkeeps hspec
  rcases hspec with hterm | ⟨hgate, hsubscribed, hwake⟩
  · exact LiveInv.of_terminated hstage hterm
  rcases hwake with hshut | hwake
  · exact LiveInv.of_terminated hstage (hkeeps.terminated (hclosed hshut))
  refine ⟨fun hs => absurd hs hstage, ?_, ?_, fun _ _ => .inr (.inr (.inl hwake))⟩
  · intro hg
    exact hkeeps.terminated (hclosed (hgate ▸ hg))
  · intro hs ht
    rw [hsubscribed]
    refine hsub hs ?_
    cases hterm : r.writeFinish.terminationRequested with
    | false => rfl
    | true => exact absurd (hkeeps.terminated hterm) (by simp [ht])

def Inv (codec : DeltaCodec E D) (s : StatusSystem E D) : Prop :=
  WriteInv codec s ∧ LiveInv codec s

variable {replayCapacity : ℕ}

theorem inv_init (h : 1 ≤ replayCapacity) : Inv codec (init replayCapacity : StatusSystem E D) := by
  refine ⟨⟨historyInv_init codec h, ?_, List.Pairwise.nil, ?_, ?_, ?_, ?_, ?_⟩, ?_, ?_, ?_, ?_⟩
  · intro i e he; simp [init] at he
  · intro e he; simp [init] at he
  · intro i e he; simp [init] at he
  · intro hw; simp [init] at hw
  · intro _ _; exact .inl ⟨rfl, rfl⟩
  · intro hr; simp [init] at hr
  · intro _; exact ⟨rfl, rfl, rfl, rfl⟩
  · intro hg; simp [init] at hg
  · intro hs; simp [init] at hs
  · intro hs; simp [init] at hs

theorem Inv.reactor (h : Inv codec s) (hkeeps : s.reactor.Keeps r) :
    WriteInv codec { s with reactor := r } :=
  h.1.keeps h.1.history (List.Subset.refl _) rfl hkeeps h.1.running

theorem inv_observe {codec : StatusCodec N E D}
    (h : Inv codec.toDeltaCodec s) (fresh : N) (forceRebase : Bool) :
    Inv codec.toDeltaCodec (s.observe codec fresh forceRebase) := by
  obtain ⟨hw, hl⟩ := h
  obtain ⟨hr, hstage, hem, hwake, hcall, hlog, hpub⟩ := s.observe_frame codec fresh forceRebase
  refine ⟨hw.keeps (hw.history.observe fresh forceRebase) hlog hem ?_ ?_, ?_, ?_, ?_, ?_⟩
  · rw [hr]; exact StatusReactor.Keeps.rfl
  · rw [hwake]; exact hw.running
  · rw [hstage, hr, hwake, hem, hcall]; exact hl.absent
  · rw [hr]; exact hl.closed
  · rw [hstage, hr]; exact hl.subscribed
  · rw [hstage, hr, hwake, hcall]
    intro hs ht
    rcases hpub with hpub | ⟨hpub, hlatest⟩
    · exact .inr (.inr (.inr (.inr (.inl hpub))))
    · rw [hpub, Current, hlatest, events, hem]
      exact hl.work hs ht

theorem inv_watch (h : Inv codec s) (hstage : s.stage = .absent) (after : ℕ) (registered admitted : Bool) :
    Inv codec
      { s with
        stage := if registered ∧ admitted then .constructing else .running
        reactor :=
          if !registered then ({ after } : StatusReactor E D).shutdown
          else if !admitted then
            ({ after } : StatusReactor E D).requestFinish
              ⟨.resourceExhausted, "stream admission limit reached"⟩
          else { after } } := by
  obtain ⟨hw, hl⟩ := h
  obtain ⟨-, hwake, hem, hcall⟩ := hl.absent hstage
  have hfresh : WriteInv codec { s with reactor := { after } } := by
    refine ⟨hw.history, ?_, ?_, ?_, ?_, ?_, ?_, ?_⟩
    · exact hw.held
    · exact hw.increasing
    · exact hw.anchored
    · intro i e he; simp [hem] at he
    · intro hf; simp at hf
    · intro _ _; exact .inl ⟨rfl, hem⟩
    · intro _; rfl
  have hfinish : ∀ status, Inv codec
      { s with stage := .running, reactor := ({ after } : StatusReactor E D).requestFinish status } :=
    fun status => ⟨hfresh.keeps hw.history (List.Subset.refl _) rfl
      (StatusReactor.requestFinish_keeps _ _) (fun _ => rfl), LiveInv.of_terminated (by simp) (by simp)⟩
  cases registered with
  | false => exact hfinish _
  | true =>
    cases admitted with
    | false => exact hfinish _
    | true =>
      refine ⟨hfresh.keeps hw.history (List.Subset.refl _) rfl .rfl (fun _ => rfl), ?_, ?_, ?_, ?_⟩
      · intro hs; simp at hs
      · intro hg; simp at hg
      · intro hs; simp at hs
      · intro hs; simp at hs

/-- A cancelled or shut down stream: the request goes through the gate. -/
theorem inv_finish (h : Inv codec s) (hstage : s.stage ≠ .absent) (status : GrpcStatus) :
    Inv codec { s with reactor := s.reactor.invoke (·.requestFinish status) } := by
  unfold StatusReactor.invoke
  split_ifs
  · exact ⟨h.reactor (StatusReactor.requestFinish_keeps _ _),
      LiveInv.of_terminated hstage (StatusReactor.requestFinish_terminated _ _)⟩
  · exact h

theorem inv_writeDone (h : Inv codec s)
    (hflight : s.reactor.writeFinish.writeInFlight = true) (ok accepted : Bool) :
    Inv codec { s with reactor := s.reactor.invoke (·.writeDone ok accepted) } := by
  obtain ⟨hw, hl⟩ := h
  have hstage : s.stage ≠ .absent := by
    intro hs
    rw [(hl.absent hs).1] at hflight
    exact absurd hflight (by simp)
  unfold StatusReactor.invoke
  split_ifs with hgate
  · refine ⟨hw.writeDone hflight ok accepted, ?_⟩
    rcases s.reactor.writeDone_spec ok accepted with hterm | ⟨hopen, hnext⟩
    · exact LiveInv.of_terminated hstage hterm
    · exact LiveInv.of_scheduleWake hnext hstage (fun hg => absurd hgate hg)
        (fun hs _ => hl.subscribed hs hopen)
  · exact ⟨hw, hl⟩

theorem inv_wakeBegin (h : Inv codec s)
    (hscheduled : s.reactor.wakeScheduled = true) : Inv codec s.wakeBegin := by
  have hstage : s.stage ≠ .absent := by
    intro hs
    rw [(h.2.absent hs).1] at hscheduled
    exact absurd hscheduled (by simp)
  have htaken : WriteInv codec { s with reactor := { s.reactor with wakeScheduled := false } } :=
    h.reactor ⟨rfl, rfl, rfl, rfl, fun _ => rfl, rfl, id⟩
  simp only [wakeBegin]
  split_ifs with hgate hbusy
  · exact ⟨htaken, LiveInv.of_terminated hstage (h.2.closed hgate)⟩
  · refine ⟨htaken, fun hs => absurd hs hstage, h.2.closed, h.2.subscribed, ?_⟩
    intro _ ht
    rcases hbusy with hbusy | hbusy
    · exact .inr (.inl hbusy)
    · exact absurd ht (by simp [hbusy])
  · refine ⟨htaken.keeps htaken.history (List.Subset.refl _) rfl
      (StatusReactor.requestFinish_keeps _ _) htaken.running, ?_⟩
    exact LiveInv.of_terminated hstage (by simp)
  · have hidle : s.reactor.writeFinish.writeInFlight = false := by
      simpa using (not_or.mp hbusy).1
    refine ⟨htaken.keeps htaken.history (List.Subset.refl _) rfl .rfl (fun _ => hidle), ?_⟩
    exact ⟨fun hs => absurd hs hstage, h.2.closed, h.2.subscribed, fun _ _ => .inr (.inr (.inr (.inl rfl)))⟩

theorem inv_wakeSelect (h : Inv codec s) (hwake : s.wakeRunning = true) :
    Inv codec (s.wakeSelect codec) := by
  obtain ⟨hw, hl⟩ := h
  have hstage : s.stage ≠ .absent := by
    intro hs
    rw [(hl.absent hs).2.1] at hwake
    exact absurd hwake (by simp)
  have hflight := hw.running hwake
  have hlast := selectStatusHistory_getLast? s.service.history s.reactor.anchor
    (!s.reactor.initialWritten)
  have hlatest : s.service.latest = s.service.history.getLast? := by
    rw [hw.history.history_getLast?, hw.history.latest]
  have hdone : ∀ r, s.reactor.Keeps r → WriteInv codec { s with reactor := r, wakeRunning := false } :=
    fun r hr => hw.keeps hw.history (List.Subset.refl _) rfl hr (fun hr => absurd hr (by simp))
  simp only [wakeSelect, hlast]
  cases hl' : s.service.history.getLast? with
  | none =>
    exact ⟨hdone _ (StatusReactor.requestFinish_keeps _ _), LiveInv.of_terminated hstage (by simp)⟩
  | some latest =>
    dsimp only
    cases hevent : s.reactor.composeEvent codec
        (selectStatusHistory s.service.history s.reactor.anchor !s.reactor.initialWritten) latest with
    | none =>
      refine ⟨hdone _ .rfl, fun hs => absurd hs hstage, hl.closed, hl.subscribed, ?_⟩
      intro _ ht
      -- a silent wake found the client up to date
      rcases hw.settled hflight ht with ⟨hinit, -⟩ | ⟨hinit, p, hp, hprev, hcursor, hsent⟩
      · obtain ⟨event, hsome, -⟩ := composeEvent_initial hw.history hl' hinit
        rw [hevent] at hsome
        exact absurd hsome (by simp)
      · have hlater := composeEvent_later hw.history hl' hinit hp hprev hcursor
        rw [hevent] at hlater
        exact .inl ⟨latest, hlatest.trans hl', hsent.1.trans (congrArg some hlater)⟩
    | some event =>
      cases hstart : s.reactor.writeFinish.tryStartWrite with
      | none =>
        refine ⟨hdone _ ⟨rfl, rfl, rfl, rfl, ?_, rfl, id⟩, LiveInv.of_terminated hstage ?_⟩
        · intro hw'
          exact absurd hw' (by simp [hflight])
        · cases hterm : s.reactor.writeFinish.terminationRequested with
          | true => rfl
          | false =>
            have := DeferredWriteFinish.tryStartWrite_eq_some.mpr ⟨hflight, hterm, rfl⟩
            rw [hstart] at this
            exact absurd this (by simp)
      | some w =>
        refine ⟨hw.write hl' hstart hevent, fun hs => absurd hs hstage, ?_, ?_, ?_⟩
        all_goals obtain ⟨-, hterm, rfl⟩ := DeferredWriteFinish.tryStartWrite_eq_some.mp hstart
        · intro hg
          exact absurd (hl.closed hg) (by simp [hterm])
        · intro hs _
          exact hl.subscribed hs hterm
        · intro _ _
          exact .inr (.inl rfl)

theorem inv_step {codec : StatusCodec N E D} {s' : StatusSystem E D} {a : StatusAction N}
    (h : Inv codec.toDeltaCodec s) (hstep : step codec s a = some s') :
    Inv codec.toDeltaCodec s' := by
  obtain ⟨hw, hl⟩ := id h
  cases a with
  | recover =>
    obtain ⟨-, ⟨⟩⟩ := Option.ite_none_left_eq_some.mp hstep
    exact ⟨hw.keeps { hw.history with } (List.Subset.refl _) rfl .rfl hw.running,
      hl.absent, hl.closed, hl.subscribed, hl.work⟩
  | observe fresh forceRebase =>
    obtain ⟨-, ⟨⟩⟩ := Option.ite_none_left_eq_some.mp hstep
    exact inv_observe h fresh forceRebase
  | markUnavailable =>
    obtain ⟨hfree, ⟨⟩⟩ := Option.ite_none_left_eq_some.mp hstep
    refine ⟨hw.keeps { hw.history with } (List.Subset.refl _) rfl .rfl hw.running,
      hl.absent, hl.closed, hl.subscribed, ?_⟩
    intro hs ht
    rcases hl.work hs ht with hc | hf | hwk | hr | hp | hcb
    · exact .inl hc
    · exact .inr (.inl hf)
    · exact .inr (.inr (.inl hwk))
    · exact .inr (.inr (.inr (.inl hr)))
    · exact absurd (Or.inl hp) hfree
    · exact absurd (Or.inr hcb) hfree
  | publish =>
    obtain ⟨-, ⟨⟩⟩ := Option.ite_none_right_eq_some.mp hstep
    refine ⟨hw.keeps hw.history (List.Subset.refl _) rfl .rfl hw.running, ?_, hl.closed, hl.subscribed, ?_⟩
    · intro hs
      obtain ⟨hr, hwake, hem, -⟩ := hl.absent hs
      exact ⟨hr, hwake, hem, by simp [hr]⟩
    · intro hs ht
      exact .inr (.inr (.inr (.inr (.inr (hl.subscribed (.inr hs) ht)))))
  | callback accepted =>
    obtain ⟨⟨hcall, -⟩, ⟨⟩⟩ := Option.ite_none_right_eq_some.mp hstep
    have hstage : s.stage ≠ .absent := by
      intro hs
      rw [(hl.absent hs).2.2.2] at hcall
      exact absurd hcall (by simp)
    unfold StatusReactor.invoke
    split_ifs with hgate
    · exact ⟨hw.keeps hw.history (List.Subset.refl _) rfl (s.reactor.scheduleWake_spec accepted).1
        hw.running, LiveInv.of_scheduleWake rfl hstage hl.closed hl.subscribed⟩
    · exact ⟨hw.keeps hw.history (List.Subset.refl _) rfl .rfl hw.running,
        LiveInv.of_terminated hstage (hl.closed hgate)⟩
  | watch after registered admitted =>
    simp only [step, ne_eq, ite_not, Option.ite_none_right_eq_some, Option.some.injEq] at hstep
    obtain ⟨hstage, rfl⟩ := hstep
    exact inv_watch h hstage after registered admitted
  | subscribe =>
    obtain ⟨-, ⟨⟩⟩ := Option.ite_none_right_eq_some.mp hstep
    refine ⟨hw.keeps hw.history (List.Subset.refl _) rfl
      ⟨rfl, rfl, rfl, rfl, fun _ => rfl, rfl, id⟩ hw.running, ?_, hl.closed, fun _ _ => rfl, ?_⟩
    · intro hs; simp at hs
    · intro hs; simp at hs
  | initialWake accepted =>
    obtain ⟨hstage, ⟨⟩⟩ := Option.ite_none_right_eq_some.mp hstep
    exact ⟨hw.keeps hw.history (List.Subset.refl _) rfl (s.reactor.scheduleWake_spec accepted).1
      hw.running, LiveInv.of_scheduleWake rfl (by simp) hl.closed
        (fun _ => hl.subscribed (.inl hstage))⟩
  | wakeBegin =>
    obtain ⟨⟨hscheduled, -⟩, ⟨⟩⟩ := Option.ite_none_right_eq_some.mp hstep
    exact inv_wakeBegin h hscheduled
  | wakeSelect =>
    obtain ⟨hwake, ⟨⟩⟩ := Option.ite_none_right_eq_some.mp hstep
    exact inv_wakeSelect h hwake
  | writeDone ok accepted =>
    obtain ⟨⟨hflight, -⟩, ⟨⟩⟩ := Option.ite_none_right_eq_some.mp hstep
    exact inv_writeDone h hflight ok accepted
  | cancel =>
    obtain ⟨⟨hstage, -⟩, ⟨⟩⟩ := Option.ite_none_right_eq_some.mp hstep
    exact inv_finish h hstage _
  | shutdown =>
    obtain ⟨⟨hstage, -⟩, ⟨⟩⟩ := Option.ite_none_right_eq_some.mp hstep
    exact inv_finish h hstage _
  | onDone =>
    obtain ⟨⟨hgate, -⟩, ⟨⟩⟩ := Option.ite_none_right_eq_some.mp hstep
    have hterm := hl.closed (by simp [hgate])
    have hstage : s.stage ≠ .absent := by
      intro hs
      rw [(hl.absent hs).1] at hgate
      exact absurd hgate (by simp)
    exact ⟨hw.keeps hw.history (List.Subset.refl _) rfl
      ⟨rfl, rfl, rfl, rfl, fun _ => rfl, rfl, id⟩ hw.running, LiveInv.of_terminated hstage hterm⟩

theorem inv_run {codec : StatusCodec N E D} (h : 1 ≤ replayCapacity) {actions : List (StatusAction N)}
    (hrun : Run (step codec) (init replayCapacity) actions s) : Inv codec.toDeltaCodec s :=
  hrun.invariant (inv_init h) (fun _ _ _ hstep hinv => inv_step hinv hstep)

end StatusSystem

/-- The server's own codec. It numbers samples in a `uint64`. -/
def linuxcncCodec (F : Type) [Zero F] [DecidableEq F] :
    StatusCodec (NmlStatusSnapshot F) (LinuxCNCStat F) (LinuxCNCStatDelta F) where
  make previous current n := makeStatusDelta previous current (UInt64.ofNat n)
  apply := applyDelta
  make_eq_none_iff previous current _ := makeStatusDelta_eq_none_iff previous current _
  apply_make := applyDelta_makeStatusDelta
  encode := encodeStatus

/-- Over every run: the client of the stream holds the sample each event names, samples are told
apart by their sequence, events move strictly forward, an event that is not a snapshot was anchored
at what the client held (or asked for) with that anchor retained and no rebase since, and at rest
the client shows the latest observation. -/
theorem watchStatus_correct {F : Type} [Zero F] [DecidableEq F] {replayCapacity : ℕ}
    (hcapacity : 1 ≤ replayCapacity) {actions : List (StatusAction (NmlStatusSnapshot F))}
    {s : StatusSystem (LinuxCNCStat F) (LinuxCNCStatDelta F)}
    (hrun : Run (StatusSystem.step (linuxcncCodec F)) (StatusSystem.init replayCapacity) actions s) :
    (∀ i e, s.emissions[i]? = some e → ∃ x ∈ s.log, x.sequence = e.event.sequence ∧
      clientStatus (linuxcncCodec F).toDeltaCodec ((s.emissions.take (i + 1)).map (·.event)) =
        some x.encoded) ∧
    (∀ x ∈ s.log, ∀ y ∈ s.log, x.sequence = y.sequence → x = y) ∧
    (s.emissions.map (·.event.sequence)).Pairwise (· < ·) ∧
    (∀ i e, s.emissions[i]? = some e →
      e.anchor = ((s.emissions.take i).getLast?.map (·.event.sequence)).getD s.reactor.after ∧
      (e.anchor ∉ e.retained ∨ e.anchor < e.rebase → e.event.IsSnapshot)) ∧
    (s.Idle → ∃ status, s.observed = some status ∧
      clientStatus (linuxcncCodec F).toDeltaCodec s.events = some status) := by
  obtain ⟨hw, hl⟩ := StatusSystem.inv_run hcapacity hrun
  refine ⟨hw.held, fun x hx y hy => hw.history.numbered.eq_of_sequence hx hy, hw.increasing, ?_, ?_⟩
  · intro i e he
    refine ⟨hw.anchors i e he, ?_⟩
    intro hlost
    rcases hw.anchored e (List.mem_of_getElem? he) with hsnap | ⟨hret, hreb⟩
    · exact hsnap
    · rcases hlost with hlost | hlost
      · exact absurd hret hlost
      · omega
  · rintro ⟨hstage, -, hterm, hflight, hwake, hrunning, hpub, hcall, -⟩
    rcases hl.work hstage hterm with ⟨x, hlatest, hclient⟩ | h | h | h | h | h
    · refine ⟨x.encoded, ?_, hclient⟩
      rw [hw.history.observed, hlatest]
      rfl
    all_goals simp_all

/-- A stream opened before the first sample: a snapshot, then a delta, then rest. -/
def twoSampleSchedule : List (StatusAction (NmlStatusSnapshot ℤ)) :=
  [.watch 0 true true, .subscribe, .initialWake true, .recover, .observe default false, .publish,
    .callback true, .wakeBegin, .wakeSelect, .writeDone true true,
    .observe { (default : NmlStatusSnapshot ℤ) with debug := 1 } false, .publish, .callback true,
    .wakeBegin, .wakeSelect, .writeDone true true, .wakeBegin, .wakeSelect]

theorem watchStatus_correct_two_samples :
    ∃ s, Run (StatusSystem.step (linuxcncCodec ℤ)) (StatusSystem.init 2) twoSampleSchedule s ∧
      s.Idle ∧ s.emissions.length = 2 ∧ ∃ status, s.observed = some status ∧
        clientStatus (linuxcncCodec ℤ).toDeltaCodec s.events = some status := by
  have hrun := Run.of_exec
    (rfl : exec (StatusSystem.step (linuxcncCodec ℤ)) (StatusSystem.init 2) twoSampleSchedule = some _)
  refine ⟨_, hrun, ?_, rfl, (watchStatus_correct (by decide) hrun).2.2.2.2 ?_⟩
  · exact ⟨rfl, rfl, rfl, rfl, rfl, rfl, rfl, rfl, rfl⟩
  · exact ⟨rfl, rfl, rfl, rfl, rfl, rfl, rfl, rfl, rfl⟩

end LinuxcncCtrl
