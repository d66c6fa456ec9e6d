import LinuxcncCtrl.Sanity.CommandQueue

/-! The discipline of the two queues: each is a segment of the submissions of its priority, what the worker
has started being the part in front of it. -/

namespace LinuxcncCtrl

open Lib

namespace CommandControl

variable {control control' : CommandControl}

def ofPriority (priority : CommandPriority) (entries : List (CommandPriority × CommandItem)) :
    List CommandItem :=
  (entries.filter fun entry => entry.1 = priority).map Prod.snd

theorem ofPriority_snoc (priority other : CommandPriority) (item : CommandItem)
    (entries : List (CommandPriority × CommandItem)) :
    ofPriority priority (entries ++ [(other, item)]) =
      ofPriority priority entries ++ if other = priority then [item] else [] := by
  unfold ofPriority
  rw [List.filter_append, List.map_append]
  by_cases h : other = priority <;> simp [h]

variable {item : CommandItem} {priority : CommandPriority}

theorem mem_ofPriority {entries : List (CommandPriority × CommandItem)} :
    item ∈ ofPriority priority entries ↔ (priority, item) ∈ entries := by
  simp [ofPriority]

theorem count_ofPriority (priority : CommandPriority) (item : CommandItem)
    (entries : List (CommandPriority × CommandItem)) :
    (ofPriority priority entries).count item = entries.count (priority, item) := by
  induction entries with
  | nil => rfl
  | cons entry entries ih =>
    obtain ⟨other, first⟩ := entry
    unfold ofPriority at ih ⊢
    by_cases hother : other = priority
    · subst hother
      simp [List.count_cons, ih]
    · simp [hother, ih]

def running (control : CommandControl) : List CommandItem :=
  match control.worker with
  | .executing item _ => [item]
  | _ => []

structure Orderly (control : CommandControl) : Prop where
  inOrder : ∀ priority, ofPriority priority control.accepted =
    ofPriority priority control.started ++ control.queue priority
  sequenced : (control.accepted.map fun entry => entry.2.sequence).Pairwise (· < ·)
  below : ∀ entry ∈ control.accepted, entry.2.sequence < control.nextSequence
  numbered : ∀ entry ∈ control.accepted, control.sequences[entry.2.ticket]? = some entry.2.sequence
  room : ∀ priority, (control.queue priority).length ≤ control.capacity priority
  serial : control.started.map Prod.snd = control.ended ++ control.running

variable {entry : CommandPriority × CommandItem}

theorem Orderly.started_accepted (h : control.Orderly)
    (hentry : entry ∈ control.started) : entry ∈ control.accepted := by
  apply mem_ofPriority.mp
  rw [h.inOrder]
  exact List.mem_append_left _ (mem_ofPriority.mpr hentry)

/-- An accepted action is queued or started, and only once. -/
theorem Orderly.count (h : control.Orderly) (hentry : entry ∈ control.accepted) :
    control.started.count entry + (control.queue entry.1).count entry.2 = 1 := by
  have hnodup : control.accepted.Nodup := .of_map _ (h.sequenced.imp Nat.ne_of_lt)
  have hcount := congrArg (List.count entry.2) (h.inOrder entry.1)
  rw [List.count_append, count_ofPriority, count_ofPriority, List.count_eq_one_of_mem hnodup hentry] at hcount
  exact hcount.symm

theorem Orderly.submitted (h : control.Orderly) (withContext : Bool)
    (hroom : (control.queue priority).length < control.capacity priority) :
    Orderly
      { control with
        nextSequence := control.nextSequence + 1
        sequences := control.sequences ++ [control.nextSequence]
        queue := Function.update control.queue priority
          (control.queue priority ++ [control.newItem withContext])
        accepted := control.accepted ++ [(priority, control.newItem withContext)] } := by
  refine ⟨fun other => ?_, ?_, fun entry hentry => ?_, fun entry hentry => ?_, fun other => ?_, h.serial⟩
  · rw [ofPriority_snoc, h.inOrder other]
    by_cases hother : other = priority
    · subst hother
      simp
    · simp [hother, Ne.symm hother]
  · rw [List.map_append, List.pairwise_append]
    refine ⟨h.sequenced, List.pairwise_singleton _ _, ?_⟩
    intro earlier hearlier later hlater
    obtain ⟨entry, hentry, rfl⟩ := List.mem_map.mp hearlier
    obtain rfl := List.mem_singleton.mp hlater
    exact h.below entry hentry
  · rcases List.mem_append.mp hentry with hold | hnew
    · exact (h.below entry hold).trans (Nat.lt_succ_self _)
    · obtain rfl := List.mem_singleton.mp hnew
      exact Nat.lt_succ_self _
  · rcases List.mem_append.mp hentry with hold | hnew
    · exact List.getElem?_append_left (List.getElem?_eq_some_iff.mp (h.numbered entry hold)).1 ▸
        h.numbered entry hold
    · obtain rfl := List.mem_singleton.mp hnew
      simp [newItem]
  · by_cases hother : other = priority
    · subst hother
      simpa using hroom
    · simpa [hother] using h.room other

theorem Orderly.taken (h : control.Orderly)
    {rest : List CommandItem} (hidle : control.worker = .idle) (hnext : control.queue priority = item :: rest) :
    Orderly
      { control with
        queue := Function.update control.queue priority rest
        worker := .executing item false
        started := control.started ++ [(priority, item)] } := by
  refine ⟨fun other => ?_, h.sequenced, h.below, h.numbered, fun other => ?_, ?_⟩
  · rw [ofPriority_snoc, h.inOrder other]
    by_cases hother : other = priority
    · subst hother
      simp [hnext]
    · simp [hother, Ne.symm hother]
  · by_cases hother : other = priority
    · subst hother
      have hroom := h.room other
      rw [hnext, List.length_cons] at hroom
      simpa using Nat.le_of_succ_le hroom
    · simpa [hother] using h.room other
  · have hserial := h.serial
    simp only [running, hidle, List.append_nil] at hserial
    simp [running, hserial]

theorem Orderly.step (h : control.Orderly) (hstep : control.Step control') : control'.Orderly := by
  cases hstep with
  | noted terminal hgrows => exact { h with }
  | submitted priority withContext hopen hroom => exact h.submitted withContext hroom
  | stopped => exact { h with }
  | started priority item rest hidle hnext hsafety => exact h.taken hidle hnext
  | deferred item before caller hruns =>
    refine { h with serial := ?_ }
    simpa [running, hruns] using h.serial
  | ended item deferred outcome hruns =>
    refine { h with serial := ?_ }
    simpa [running, hruns] using h.serial
  | resolved ticket next rest terminal hresolving hgrows hterminal =>
    refine { h with serial := ?_ }
    simpa [running, hresolving] using h.serial
  | rested ticket hresolving =>
    refine { h with serial := ?_ }
    simpa [running, hresolving] using h.serial
  | exited hidle hempty hstopping =>
    refine { h with serial := ?_ }
    simpa [running, hidle] using h.serial

/-- What becomes of a started action: its ticket is terminal, or will be made so by the worker, or it has been
deferred. -/
inductive Settles (control : CommandControl) (item : CommandItem) : Prop
  | terminal (h : control.terminal item.ticket = true)
  | deferred (caller : ℕ) (h : (item.ticket, caller) ∈ control.deferrals)
  | runs (deferred : Bool) (h : control.worker = .executing item deferred)
  | resolving (transitions : List CommandTransition) (next : CommandTransition)
      (h : control.worker = .resolving item.ticket transitions) (hnext : next ∈ transitions)
      (hterminal : next.state.terminal = true)

/-- An action that was not deferred ends in a terminal transition. -/
theorem transitions_terminal (item : CommandItem) (outcome : CommandOutcome) :
    ∃ next ∈ item.transitions false outcome, next.state.terminal = true := by
  cases outcome with
  | returned =>
    refine ⟨.completed, ?_, rfl⟩
    cases hcontext : item.withContext <;> simp [CommandItem.transitions, hcontext]
  | threw error => exact ⟨_, List.mem_singleton_self _, rfl⟩
  | threwUnknown => exact ⟨_, List.mem_singleton_self _, rfl⟩

def Rests (worker : CommandWorker) : Prop :=
  worker = .idle ∨ worker = .exited ∨ ∃ ticket, worker = .resolving ticket []

def Over (control : CommandControl) (item : CommandItem) : Prop :=
  control.terminal item.ticket = true ∨ ∃ caller, (item.ticket, caller) ∈ control.deferrals

theorem Over.settles (h : control.Over item)
    (hterminal : ∀ ticket, control.terminal ticket = true → control'.terminal ticket = true)
    (hdeferrals : control.deferrals ⊆ control'.deferrals) : control'.Settles item := by
  rcases h with h | ⟨caller, h⟩
  · exact .terminal (hterminal _ h)
  · exact .deferred caller (hdeferrals h)

theorem Settles.over (h : control.Settles item) (hrests : Rests control.worker) : control.Over item := by
  cases h with
  | terminal h => exact .inl h
  | deferred caller h => exact .inr ⟨caller, h⟩
  | runs deferred h =>
    rw [h] at hrests
    simp [Rests] at hrests
  | resolving transitions next h hnext hlast =>
    rw [h] at hrests
    rcases hrests with hidle | hexited | ⟨ticket, hempty⟩
    · cases hidle
    · cases hexited
    · cases hempty
      cases hnext

/-- The worker brings every action it has started to an end. -/
structure Attended (control : CommandControl) : Prop where
  settles : ∀ entry ∈ control.started, control.Settles entry.2
  flagged : ∀ item, control.worker = .executing item true → ∃ caller, (item.ticket, caller) ∈ control.deferrals
  exited : control.worker = .exited → control.stopping = true ∧ ∀ priority, control.queue priority = []

theorem Settles.congr (h : control.Settles item)
    (hterminal : ∀ ticket, control.terminal ticket = true → control'.terminal ticket = true)
    (hdeferrals : control.deferrals ⊆ control'.deferrals) (hworker : control'.worker = control.worker) :
    control'.Settles item := by
  cases h with
  | terminal h => exact .terminal (hterminal _ h)
  | deferred caller h => exact .deferred caller (hdeferrals h)
  | runs deferred h => exact .runs deferred (hworker.trans h)
  | resolving transitions next h hnext hlast => exact .resolving transitions next (hworker.trans h) hnext hlast

theorem Attended.step (h : control.Attended) (horderly : control.Orderly) (hstep : control.Step control') :
    control'.Attended := by
  cases hstep with
  | noted terminal hgrows =>
    refine ⟨fun entry hentry => ?_, h.flagged, h.exited⟩
    exact (h.settles entry hentry).congr hgrows (List.Subset.refl _) rfl
  | submitted priority withContext hopen hroom =>
    refine ⟨fun entry hentry => ?_, h.flagged, fun hexited => ?_⟩
    · exact (h.settles entry hentry).congr (fun _ => id) (List.Subset.refl _) rfl
    · exact absurd ((h.exited hexited).1.symm.trans hopen) (by decide)
  | stopped =>
    refine ⟨fun entry hentry => ?_, h.flagged, fun hexited => ⟨rfl, (h.exited hexited).2⟩⟩
    exact (h.settles entry hentry).congr (fun _ => id) (List.Subset.refl _) rfl
  | started priority item rest hidle hnext hsafety =>
    refine ⟨fun entry hentry => ?_, by simp, by simp⟩
    rcases List.mem_append.mp hentry with hold | hnew
    · exact ((h.settles entry hold).over (.inl hidle)).settles (fun _ => id) (List.Subset.refl _)
    · obtain rfl := List.mem_singleton.mp hnew
      exact .runs false rfl
  | deferred item before caller hruns =>
    have hgrow : control.deferrals ⊆ control.deferrals ++ [(item.ticket, caller)] := List.subset_append_left _ _
    refine ⟨fun entry hentry => ?_, fun other hother => ?_, by simp⟩
    · cases h.settles entry hentry with
      | terminal h => exact .terminal h
      | deferred caller h => exact .deferred caller (hgrow h)
      | runs deferred h =>
        cases hruns.symm.trans h
        exact .runs true rfl
      | resolving transitions next h hnext hlast => exact absurd (hruns.symm.trans h) (by simp)
    · cases hother
      exact ⟨caller, List.mem_append_right _ (List.mem_singleton_self _)⟩
  | ended item deferred outcome hruns =>
    refine ⟨fun entry hentry => ?_, by simp, by simp⟩
    cases h.settles entry hentry with
    | terminal h => exact .terminal h
    | deferred caller h => exact .deferred caller h
    | runs flag hruns' =>
      cases hruns.symm.trans hruns'
      cases deferred with
      | true =>
        obtain ⟨caller, hcaller⟩ := h.flagged _ hruns
        exact .deferred caller hcaller
      | false =>
        obtain ⟨next, hnext, hlast⟩ := transitions_terminal entry.2 outcome
        exact .resolving _ next rfl hnext hlast
    | resolving transitions next h hnext hlast => exact absurd (hruns.symm.trans h) (by simp)
  | resolved ticket next rest terminal hresolving hgrows hterminal =>
    refine ⟨fun entry hentry => ?_, by simp, by simp⟩
    cases h.settles entry hentry with
    | terminal h => exact .terminal (hgrows _ h)
    | deferred caller h => exact .deferred caller h
    | runs deferred h => exact absurd (hresolving.symm.trans h) (by simp)
    | resolving transitions last h hmem hlast =>
      cases hresolving.symm.trans h
      rcases List.mem_cons.mp hmem with rfl | hrest
      · have hticket := horderly.numbered entry (horderly.started_accepted hentry)
        exact .terminal (hterminal (List.getElem?_eq_some_iff.mp hticket).1 hlast)
      · exact .resolving rest last rfl hrest hlast
  | rested ticket hresolving =>
    refine ⟨fun entry hentry => ?_, by simp, by simp⟩
    exact ((h.settles entry hentry).over (.inr (.inr ⟨ticket, hresolving⟩))).settles (fun _ => id)
      (List.Subset.refl _)
  | exited hidle hempty hstopping =>
    refine ⟨fun entry hentry => ?_, by simp, fun _ => ⟨hstopping, hempty⟩⟩
    exact ((h.settles entry hentry).over (.inl hidle)).settles (fun _ => id) (List.Subset.refl _)

theorem Step.kept (hstep : control.Step control') : control'.capacity = control.capacity ∧
    (control.stopping = true → control'.stopping = true) ∧
    (control'.started = control.started ∨
      ∃ priority item, control'.started = control.started ++ [(priority, item)] ∧ control.worker = .idle ∧
        (priority = .normal → control.queue .safety = [])) := by
  cases hstep with
  | started priority item rest hidle hnext hsafety =>
    exact ⟨rfl, id, .inr ⟨priority, item, rfl, hidle, hsafety⟩⟩
  | stopped => exact ⟨rfl, fun _ => rfl, .inl rfl⟩
  | _ => exact ⟨rfl, id, .inl rfl⟩

/-- What is left for the worker: the queued items, and the rest of its turn. -/
def remaining (control : CommandControl) : ℕ :=
  5 * ((control.queue .normal).length + (control.queue .safety).length) +
    match control.worker with
    | .idle => 0
    | .executing _ _ => 4
    | .resolving _ transitions => transitions.length + 1
    | .exited => 0

end CommandControl

namespace CommandHistory

variable {history history' : CommandHistory}

theorem transitions_length (item : CommandItem) (deferred : Bool) (outcome : CommandOutcome) :
    (item.transitions deferred outcome).length ≤ 2 := by
  cases outcome <;> cases hcontext : item.withContext <;> cases deferred <;>
    simp [CommandItem.transitions, hcontext]

/-- While something is queued the worker can go on, and gets closer to the end of it. -/
theorem worker_step (outcome : CommandOutcome) (hattended : history.control.Attended)
    (hqueued : ∃ priority, history.coordinator.queueOf priority ≠ []) :
    ∃ action history', CommandCoordinatorAction.OfWorker outcome action ∧
      history.step action = some history' ∧ history'.accepted = history.accepted ∧
      history'.control.remaining < history.control.remaining := by
  cases hworker : history.coordinator.worker with
  | idle =>
    cases hsafety : history.coordinator.safetyQueue with
    | cons item rest =>
      refine ⟨.take, history.record ({ history.coordinator with safetyQueue := rest }.start item) .take, .inl rfl,
        ?_, rfl, ?_⟩
      · simp only [step, CommandCoordinator.step, hworker, hsafety, Option.map_some]
      · simp [CommandControl.remaining, control, record, CommandCoordinator.queueOf, CommandCoordinator.start,
          hworker, hsafety]
        omega
    | nil =>
      cases hqueue : history.coordinator.queue with
      | cons item rest =>
        refine ⟨.take, history.record ({ history.coordinator with queue := rest }.start item) .take, .inl rfl,
          ?_, rfl, ?_⟩
        · simp only [step, CommandCoordinator.step, hworker, hsafety, hqueue, Option.map_some]
        · simp [CommandControl.remaining, control, record, CommandCoordinator.queueOf, CommandCoordinator.start,
            hworker, hsafety, hqueue]
          omega
      | nil =>
        obtain ⟨priority, hne⟩ := hqueued
        cases priority with
        | normal => exact absurd hqueue hne
        | safety => exact absurd hsafety hne
  | executing item deferred =>
    have hlength := transitions_length item deferred outcome
    refine ⟨.finish outcome, history.record
      { history.coordinator with worker := .resolving item.ticket (item.transitions deferred outcome) }
      (.finish outcome), .inr (.inl rfl), ?_, rfl, ?_⟩
    · simp only [step, CommandCoordinator.step, hworker, Option.map_some]
    · simp only [CommandControl.remaining, control, record, CommandCoordinator.queueOf, hworker]
      omega
  | resolving ticket transitions =>
    cases transitions with
    | nil =>
      refine ⟨.resolve, history.record { history.coordinator with worker := .idle } .resolve, .inr (.inr rfl), ?_,
        rfl, ?_⟩
      · simp only [step, CommandCoordinator.step, hworker, Option.map_some]
      · simp [CommandControl.remaining, control, record, CommandCoordinator.queueOf, hworker]
    | cons next rest =>
      refine ⟨.resolve, history.record
        ({ history.coordinator with worker := .resolving ticket rest }.transition ticket next) .resolve,
        .inr (.inr rfl), ?_, rfl, ?_⟩
      · simp only [step, CommandCoordinator.step, hworker, Option.map_some]
      · obtain ⟨-, hqueue, -, -, -, hworker'⟩ :=
          transition_frame { history.coordinator with worker := .resolving ticket rest } ticket next
        simp [CommandControl.remaining, control, record, hqueue, hworker', CommandCoordinator.queueOf, hworker]
  | exited =>
    obtain ⟨priority, hne⟩ := hqueued
    exact absurd ((hattended.exited hworker).2 priority) hne

def Disciplined (history : CommandHistory) : Prop := history.control.Orderly ∧ history.control.Attended

theorem Disciplined.step {action : CommandCoordinatorAction} (h : history.Disciplined)
    (hstep : history.step action = some history') : history'.Disciplined :=
  ⟨h.1.step (step_control hstep), h.2.step h.1 (step_control hstep)⟩

theorem Disciplined.construct (capacity safetyCapacity : ℕ) : (construct capacity safetyCapacity).Disciplined := by
  refine ⟨⟨fun priority => ?_, .nil, nofun, nofun, fun priority => ?_, rfl⟩, ⟨nofun, nofun, nofun⟩⟩
  · cases priority <;> rfl
  · cases priority <;> exact Nat.zero_le _

theorem drains (outcome : CommandOutcome) (h : history.Disciplined) :
    ∃ more drained, (∀ action ∈ more, CommandCoordinatorAction.OfWorker outcome action) ∧
      Run step history more drained ∧ drained.accepted = history.accepted ∧ drained.Disciplined ∧
      ∀ priority, drained.coordinator.queueOf priority = [] := by
  induction hremaining : history.control.remaining using Nat.strong_induction_on generalizing history with
  | _ remaining ih =>
    by_cases hempty : ∀ priority, history.coordinator.queueOf priority = []
    · exact ⟨[], history, nofun, .nil, rfl, h, hempty⟩
    · obtain ⟨action, history', hworker, hstep, haccepted, hless⟩ :=
        worker_step outcome h.2 (not_forall.mp hempty)
      obtain ⟨more, drained, hmore, hrun, hsame, hdrained, hdone⟩ :=
        ih _ (hremaining ▸ hless) (h.step hstep) rfl
      exact ⟨action :: more, drained, List.forall_mem_cons.mpr ⟨hworker, hmore⟩, hrun.cons hstep,
        hsame.trans haccepted, hdrained, hdone⟩

theorem run_kept {actions : List CommandCoordinatorAction} (hrun : Run step history actions history') :
    history'.coordinator.capacityOf = history.coordinator.capacityOf ∧
      (history.coordinator.stopping = true → history'.coordinator.stopping = true) := by
  apply hrun.invariant
  · exact ⟨rfl, id⟩
  · intro s action s' hstep hkept
    obtain ⟨hcapacity, hstopping, -⟩ := (step_control hstep).kept
    exact ⟨hcapacity.trans hkept.1, fun h => hstopping (hkept.2 h)⟩

theorem running_toList : history.coordinator.running.toList = history.control.running := by
  unfold CommandCoordinator.running CommandControl.running control
  cases history.coordinator.worker <;> rfl

theorem Disciplined.started_of_empty (h : history.Disciplined)
    (hempty : ∀ priority, history.coordinator.queueOf priority = []) {entry : CommandPriority × CommandItem}
    (hentry : entry ∈ history.accepted) : entry ∈ history.started := by
  have hmem : entry.2 ∈ CommandControl.ofPriority entry.1 history.accepted :=
    CommandControl.mem_ofPriority.mpr hentry
  have horder : CommandControl.ofPriority entry.1 history.accepted =
      CommandControl.ofPriority entry.1 history.started ++ history.coordinator.queueOf entry.1 :=
    h.1.inOrder entry.1
  rw [horder, hempty, List.append_nil] at hmem
  exact CommandControl.mem_ofPriority.mp hmem

/-- In every state of a run: an accepted action is queued or started, and only once; only accepted actions are
started; the worker alone can start all of them; actions are started one at a time, and those of one priority in
the order of their acceptance; a Normal action is started only when no Safety action is queued; each queue keeps
to its own capacity and is full only at it; the sequences increase and are those of the tickets; and once the
worker has exited, every accepted action was started, its ticket is terminal or was deferred, and nothing is
accepted any more. -/
theorem queue_discipline (capacity safetyCapacity : ℕ) {actions : List CommandCoordinatorAction}
    (hrun : Run step (construct capacity safetyCapacity) actions history) :
    (∀ entry ∈ history.accepted,
      history.started.count entry + (history.coordinator.queueOf entry.1).count entry.2 = 1) ∧
    (∀ entry ∈ history.started, entry ∈ history.accepted) ∧
    (∀ outcome, ∃ more drained, (∀ action ∈ more, CommandCoordinatorAction.OfWorker outcome action) ∧
      Run step history more drained ∧ ∀ entry ∈ history.accepted, entry ∈ drained.started) ∧
    history.started.map Prod.snd = history.ended ++ history.coordinator.running.toList ∧
    (∀ priority, history.acceptedOf priority =
      history.startedOf priority ++ history.coordinator.queueOf priority) ∧
    (∀ action history', history.step action = some history' → history'.started = history.started ∨
      ∃ priority item, history'.started = history.started ++ [(priority, item)] ∧
        history.coordinator.running = none ∧ (priority = .normal → history.coordinator.safetyQueue = [])) ∧
    (∀ priority, (history.coordinator.queueOf priority).length ≤
        (CommandCoordinator.construct capacity safetyCapacity).capacityOf priority ∧
      ∀ withContext, (history.coordinator.submit withContext priority).1 = .queueFull →
        (CommandCoordinator.construct capacity safetyCapacity).capacityOf priority ≤
          (history.coordinator.queueOf priority).length) ∧
    (history.accepted.map fun entry => entry.2.sequence).Pairwise (· < ·) ∧
    (∀ entry ∈ history.accepted, ∃ ticket, history.coordinator.tickets[entry.2.ticket]? = some ticket ∧
      ticket.result.sequence = entry.2.sequence) ∧
    (history.coordinator.worker = .exited → (∀ entry ∈ history.accepted, entry ∈ history.started ∧
        (history.coordinator.terminal entry.2.ticket = true ∨
          ∃ caller, (entry.2.ticket, caller) ∈ history.deferrals)) ∧
      ∀ more later, Run step history more later → ∀ withContext priority,
        (later.coordinator.submit withContext priority).1 = .stopped) := by
  have h : history.Disciplined := by
    apply hrun.invariant
    · exact .construct capacity safetyCapacity
    · exact fun s action s' hstep hs => hs.step hstep
  obtain ⟨hcapacity, -⟩ := run_kept hrun
  have hcapacityOf : history.coordinator.capacityOf =
      (CommandCoordinator.construct capacity safetyCapacity).capacityOf := hcapacity
  refine ⟨fun entry hentry => h.1.count hentry, fun entry hentry => h.1.started_accepted hentry,
    fun outcome => ?_, ?_, h.1.inOrder, fun action history' hstep => ?_, fun priority => ⟨?_, ?_⟩, h.1.sequenced,
    fun entry hentry => ?_, fun hexited => ⟨fun entry hentry => ?_, ?_⟩⟩
  · obtain ⟨more, drained, hmore, hdrains, haccepted, hdrained, hempty⟩ := drains outcome h
    refine ⟨more, drained, hmore, hdrains, fun entry hentry => ?_⟩
    rw [← haccepted] at hentry
    exact hdrained.started_of_empty hempty hentry
  · rw [running_toList]
    exact h.1.serial
  · rcases (step_control hstep).kept.2.2 with hsame | ⟨priority, item, hstarted, hidle, hsafety⟩
    · exact .inl hsame
    · refine .inr ⟨priority, item, hstarted, ?_, hsafety⟩
      have hworker : history.coordinator.worker = .idle := hidle
      simp only [CommandCoordinator.running, hworker]
  · rw [← hcapacityOf]
    exact h.1.room priority
  · intro withContext hfull
    rw [CommandCoordinator.submit_eq] at hfull
    rw [← hcapacityOf]
    split_ifs at hfull with hstopping hlength
    exact hlength
  · have hnumbered : history.coordinator.sequences[entry.2.ticket]? = some entry.2.sequence :=
      h.1.numbered entry hentry
    rw [CommandCoordinator.sequences, List.getElem?_map] at hnumbered
    exact Option.map_eq_some_iff.mp hnumbered
  · have hstarted := h.started_of_empty (h.2.exited hexited).2 hentry
    exact ⟨hstarted, (h.2.settles entry hstarted).over (.inr (.inl hexited))⟩
  · intro more later hlater withContext priority
    rw [CommandCoordinator.submit_eq, if_pos ((run_kept hlater).2 (h.2.exited hexited).1)]

/-- A Normal and a Safety action are submitted while the first action blocks the worker; a second Safety action
finds its queue full. -/
def blockedWorker : List CommandCoordinatorAction :=
  [.submit false .normal, .take, .submit true .normal, .submit false .safety, .submit false .safety,
    .finish .returned, .resolve, .resolve, .resolve, .take, .stop, .submit false .safety, .finish .threwUnknown,
    .resolve, .resolve, .take, .deferCompletion 1, .finish .returned, .resolve, .exit]

theorem queue_discipline_blocked :
    ((exec step (construct 1 1) blockedWorker).getD (construct 1 1)).started.map (fun entry => entry.2.sequence) =
        [1, 3, 2] ∧
      ∀ entry ∈ ((exec step (construct 1 1) blockedWorker).getD (construct 1 1)).accepted,
        entry ∈ ((exec step (construct 1 1) blockedWorker).getD (construct 1 1)).started ∧
        (((exec step (construct 1 1) blockedWorker).getD (construct 1 1)).coordinator.terminal
            entry.2.ticket = true ∨
          ∃ caller, (entry.2.ticket, caller) ∈
            ((exec step (construct 1 1) blockedWorker).getD (construct 1 1)).deferrals) := by
  have hrun : Run step (construct 1 1) blockedWorker
      ((exec step (construct 1 1) blockedWorker).getD (construct 1 1)) := .getD_exec (by decide +kernel)
  obtain ⟨-, -, -, -, -, -, -, -, -, hexited⟩ := queue_discipline 1 1 hrun
  exact ⟨by decide +kernel, (hexited (by rfl)).1⟩

end CommandHistory

end LinuxcncCtrl
