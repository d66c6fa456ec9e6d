import LinuxcncCtrl.Spec.CommandHistory
import LinuxcncCtrl.Proofs.CommandCoordinator

/-! The coordinator as a queue machine: two queues and one worker, with the tickets reduced to whether they
are terminal and the observers left out. Every step of the coordinator is a step of this machine. -/

namespace LinuxcncCtrl

open Lib

structure CommandControl where
  capacity : CommandPriority → ℕ
  queue : CommandPriority → List CommandItem
  nextSequence : ℕ
  /-- The sequences of the tickets, by ticket. -/
  sequences : List ℕ
  terminal : ℕ → Bool
  stopping : Bool
  worker : CommandWorker
  accepted : List (CommandPriority × CommandItem)
  started : List (CommandPriority × CommandItem)
  ended : List CommandItem
  deferrals : List (ℕ × ℕ)

namespace CommandControl

def newItem (control : CommandControl) (withContext : Bool) : CommandItem :=
  ⟨control.nextSequence, withContext, control.sequences.length⟩

/-- Submissions, the worker and the callbacks. Any step can make tickets terminal, none takes that back. -/
inductive Step (control : CommandControl) : CommandControl → Prop
  | noted (terminal : ℕ → Bool) (hgrows : ∀ ticket, control.terminal ticket = true → terminal ticket = true) :
      Step control { control with terminal }
  | submitted (priority : CommandPriority) (withContext : Bool) (hopen : control.stopping = false)
      (hroom : (control.queue priority).length < control.capacity priority) :
      Step control
        { control with
          nextSequence := control.nextSequence + 1
          sequences := control.sequences ++ [control.nextSequence]
          queue := Function.update control.queue priority
            (control.queue priority ++ [control.newItem withContext])
          accepted := control.accepted ++ [(priority, control.newItem withContext)] }
  | stopped : Step control { control with stopping := true }
  | started (priority : CommandPriority) (item : CommandItem) (rest : List CommandItem)
      (hidle : control.worker = .idle) (hnext : control.queue priority = item :: rest)
      (hsafety : priority = .normal → control.queue .safety = []) :
      Step control
        { control with
          queue := Function.update control.queue priority rest
          worker := .executing item false
          started := control.started ++ [(priority, item)] }
  | deferred (item : CommandItem) (before : Bool) (caller : ℕ) (hruns : control.worker = .executing item before) :
      Step control
        { control with
          worker := .executing item true
          deferrals := control.deferrals ++ [(item.ticket, caller)] }
  | ended (item : CommandItem) (deferred : Bool) (outcome : CommandOutcome)
      (hruns : control.worker = .executing item deferred) :
      Step control
        { control with
          worker := .resolving item.ticket (item.transitions deferred outcome)
          ended := control.ended ++ [item] }
  | resolved (ticket : ℕ) (next : CommandTransition) (rest : List CommandTransition) (terminal : ℕ → Bool)
      (hresolving : control.worker = .resolving ticket (next :: rest))
      (hgrows : ∀ ticket, control.terminal ticket = true → terminal ticket = true)
      (hterminal : ticket < control.sequences.length → next.state.terminal = true → terminal ticket = true) :
      Step control { control with worker := .resolving ticket rest, terminal }
  | rested (ticket : ℕ) (hresolving : control.worker = .resolving ticket []) :
      Step control { control with worker := .idle }
  | exited (hidle : control.worker = .idle) (hempty : ∀ priority, control.queue priority = [])
      (hstopping : control.stopping = true) :
      Step control { control with worker := .exited }

end CommandControl

namespace CommandCoordinator

variable {coordinator coordinator' : CommandCoordinator}

def sequences (coordinator : CommandCoordinator) : List ℕ :=
  coordinator.tickets.map fun ticket => ticket.result.sequence

@[simp] theorem sequences_length : coordinator.sequences.length = coordinator.tickets.length := List.length_map _

theorem sequences_setTicket {index : ℕ} {ticket : CommandTicketState}
    {updated : CommandTicketState × List ObserverCall} (hticket : coordinator.tickets[index]? = some ticket)
    (hsequence : updated.1.result.sequence = ticket.result.sequence) :
    (coordinator.setTicket index updated).sequences = coordinator.sequences := by
  obtain ⟨hlt, rfl⟩ := List.getElem?_eq_some_iff.mp hticket
  simp only [sequences, setTicket, List.map_set, hsequence]
  rw [← List.getElem_map (fun ticket : CommandTicketState => ticket.result.sequence), List.set_getElem_self]
  simpa using hlt

theorem terminal_moved (h : coordinator.ledger.Moved coordinator'.ledger) (ticket : ℕ)
    (hterminal : coordinator.terminal ticket = true) : coordinator'.terminal ticket = true := by
  simp only [CommandCoordinator.terminal, Option.any_eq_true] at hterminal ⊢
  obtain ⟨state, hstate, hterminal⟩ := hterminal
  obtain ⟨state', hstate', hmoves⟩ := h.ticket hstate
  rw [← hmoves.eq_of_terminal hterminal] at hterminal
  exact ⟨state', hstate', hterminal⟩

theorem transition_terminal {ticket : ℕ} {transition : CommandTransition}
    (hticket : ticket < coordinator.tickets.length) (hterminal : transition.state.terminal = true) :
    (coordinator.transition ticket transition).terminal ticket = true := by
  unfold CommandCoordinator.transition
  rw [List.getElem?_eq_getElem hticket]
  simp only [CommandCoordinator.terminal, setTicket, List.getElem?_set_self hticket, Option.any_some]
  unfold CommandTicketState.transition
  split_ifs with hbefore hlate
  · exact hbefore
  · rw [hlate.1] at hterminal
    cases hterminal
  · exact hterminal

def push (coordinator : CommandCoordinator) (withContext : Bool) (priority : CommandPriority) :
    CommandCoordinator :=
  let item : CommandItem := ⟨coordinator.nextSequence, withContext, coordinator.tickets.length⟩
  { coordinator with
    nextSequence := coordinator.nextSequence + 1
    tickets := coordinator.tickets ++ [{ result := { sequence := coordinator.nextSequence } }]
    queue := if priority = .normal then coordinator.queue ++ [item] else coordinator.queue
    safetyQueue := if priority = .safety then coordinator.safetyQueue ++ [item] else coordinator.safetyQueue }

theorem submit_eq (withContext : Bool) (priority : CommandPriority) :
    coordinator.submit withContext priority =
      if coordinator.stopping then (.stopped, coordinator)
      else if coordinator.capacityOf priority ≤ (coordinator.queueOf priority).length then
        (.queueFull, coordinator)
      else (.submitted, coordinator.push withContext priority) := by
  cases priority <;> rfl

section

variable (coordinator : CommandCoordinator) (withContext : Bool) (priority : CommandPriority)

theorem push_queueOf :
    (coordinator.push withContext priority).queueOf = Function.update coordinator.queueOf priority
        (coordinator.queueOf priority ++
          [⟨coordinator.nextSequence, withContext, coordinator.tickets.length⟩]) := by
  funext other
  cases priority <;> cases other <;> simp [push, queueOf, Function.update]

theorem push_sequences :
    (coordinator.push withContext priority).sequences = coordinator.sequences ++ [coordinator.nextSequence] :=
  List.map_append

theorem push_terminal : (coordinator.push withContext priority).terminal = coordinator.terminal := by
  funext ticket
  simp only [terminal, push, List.getElem?_append]
  split_ifs with hlt
  · rfl
  · rw [List.getElem?_eq_none (Nat.le_of_not_lt hlt)]
    cases ticket - coordinator.tickets.length <;> rfl

end

end CommandCoordinator

namespace CommandHistory

variable {history history' : CommandHistory}

def control (history : CommandHistory) : CommandControl :=
  { capacity := history.coordinator.capacityOf
    queue := history.coordinator.queueOf
    nextSequence := history.coordinator.nextSequence
    sequences := history.coordinator.sequences
    terminal := history.coordinator.terminal
    stopping := history.coordinator.stopping
    worker := history.coordinator.worker
    accepted := history.accepted
    started := history.started
    ended := history.ended
    deferrals := history.deferrals }

variable {coordinator : CommandCoordinator}

theorem noted (hmoved : history.coordinator.ledger.Moved coordinator.ledger)
    (hcapacity : coordinator.capacityOf = history.coordinator.capacityOf)
    (hqueue : coordinator.queueOf = history.coordinator.queueOf)
    (hsequence : coordinator.nextSequence = history.coordinator.nextSequence)
    (hissued : coordinator.sequences = history.coordinator.sequences)
    (hstopping : coordinator.stopping = history.coordinator.stopping)
    (hworker : coordinator.worker = history.coordinator.worker) :
    history.control.Step { history with coordinator }.control := by
  have h : history.control.Step _ := .noted coordinator.terminal (CommandCoordinator.terminal_moved hmoved)
  simpa only [control, hcapacity, hqueue, hsequence, hissued, hstopping, hworker] using h

theorem submit_control (withContext : Bool) (priority : CommandPriority) : history.control.Step
      (history.record (history.coordinator.submit withContext priority).2
        (.submit withContext priority)).control := by
  have hkept : history.control.Step history.control := .noted _ fun _ h => h
  by_cases hstopping : history.coordinator.stopping = true
  · simpa [record, CommandCoordinator.acceptedItem, CommandCoordinator.submit_eq, hstopping] using hkept
  · by_cases hfull : history.coordinator.capacityOf priority ≤ (history.coordinator.queueOf priority).length
    · simpa [record, CommandCoordinator.acceptedItem, CommandCoordinator.submit_eq, hstopping, hfull] using hkept
    · have h : history.control.Step _ :=
        .submitted priority withContext (Bool.eq_false_of_not_eq_true hstopping) (Nat.lt_of_not_le hfull)
      have hsubmit : history.coordinator.submit withContext priority =
          (.submitted, history.coordinator.push withContext priority) := by
        rw [CommandCoordinator.submit_eq, if_neg hstopping, if_neg hfull]
      have hitem : history.control.newItem withContext =
          ⟨history.coordinator.nextSequence, withContext, history.coordinator.tickets.length⟩ := by
        simp [CommandControl.newItem, control]
      rw [hitem] at h
      simp only [record, CommandCoordinator.acceptedItem, hsubmit, control, CommandCoordinator.push_queueOf,
        CommandCoordinator.push_terminal, CommandCoordinator.push_sequences]
      exact h

theorem take_control (h : history.coordinator.step .take = some coordinator) :
    history.control.Step (history.record coordinator .take).control := by
  dsimp only [CommandCoordinator.step] at h
  split at h
  next item rest hidle hsafety =>
    cases h
    have hstep : history.control.Step _ := .started .safety item rest hidle hsafety nofun
    have hqueue : ({ history.coordinator with safetyQueue := rest }.start item).queueOf =
        Function.update history.coordinator.queueOf .safety rest := by
      funext priority
      cases priority <;> rfl
    simp only [record, CommandCoordinator.nextItem, hsafety, control, hqueue]
    exact hstep
  next item rest hidle hsafety hqueue =>
    cases h
    have hstep : history.control.Step _ := .started .normal item rest hidle hqueue fun _ => hsafety
    have hrest : ({ history.coordinator with queue := rest }.start item).queueOf =
        Function.update history.coordinator.queueOf .normal rest := by
      funext priority
      cases priority <;> rfl
    have hnext : history.coordinator.nextItem = some (.normal, item) := by
      simp only [CommandCoordinator.nextItem, hsafety, hqueue]
    simp only [record, hnext, control, hrest]
    exact hstep
  next => cases h

theorem transition_frame (coordinator : CommandCoordinator) (ticket : ℕ) (transition : CommandTransition) :
    (coordinator.transition ticket transition).capacityOf = coordinator.capacityOf ∧
      (coordinator.transition ticket transition).queueOf = coordinator.queueOf ∧
      (coordinator.transition ticket transition).nextSequence = coordinator.nextSequence ∧
      (coordinator.transition ticket transition).sequences = coordinator.sequences ∧
      (coordinator.transition ticket transition).stopping = coordinator.stopping ∧
      (coordinator.transition ticket transition).worker = coordinator.worker := by
  unfold CommandCoordinator.transition
  split
  next => exact ⟨rfl, rfl, rfl, rfl, rfl, rfl⟩
  next state hstate =>
    exact ⟨rfl, rfl, rfl,
      CommandCoordinator.sequences_setTicket hstate (state.transition_moves transition).sequence, rfl, rfl⟩

theorem transition_control (ticket : ℕ) (transition : CommandTransition) : history.control.Step
      { history with coordinator := history.coordinator.transition ticket transition }.control := by
  obtain ⟨hcapacity, hqueue, hsequence, hissued, hstopping, hworker⟩ :=
    transition_frame history.coordinator ticket transition
  exact noted (history.coordinator.moved_transition ticket transition) hcapacity hqueue hsequence hissued hstopping
    hworker

theorem resolve_control (h : history.coordinator.step .resolve = some coordinator) :
    history.control.Step { history with coordinator }.control := by
  have hmoved := CommandCoordinator.step_moved h
  dsimp only [CommandCoordinator.step] at h
  split at h
  next ticket next rest hworker =>
    cases h
    obtain ⟨hcapacity, hqueue, hsequence, hissued, hstopping, hworker'⟩ :=
      transition_frame { history.coordinator with worker := .resolving ticket rest } ticket next
    have hstep : history.control.Step _ :=
      .resolved ticket next rest _ hworker (CommandCoordinator.terminal_moved hmoved) fun hticket hterminal =>
        CommandCoordinator.transition_terminal (by simpa [control] using hticket) hterminal
    simp only [control, hcapacity, hqueue, hsequence, hissued, hstopping, hworker']
    exact hstep
  next ticket hworker =>
    cases h
    exact .rested ticket hworker
  next => cases h

theorem step_control {action : CommandCoordinatorAction} (h : history.step action = some history') :
    history.control.Step history'.control := by
  obtain ⟨coordinator, hstep, rfl⟩ := Option.map_eq_some_iff.mp h
  cases action with
  | submit withContext priority =>
    cases hstep
    exact submit_control withContext priority
  | stop =>
    cases hstep
    exact .stopped
  | take => exact take_control hstep
  | finish outcome =>
    dsimp only [CommandCoordinator.step] at hstep
    split at hstep
    next item deferred hworker =>
      cases hstep
      simp only [record, CommandCoordinator.running, hworker]
      exact .ended item deferred outcome hworker
    next => cases hstep
  | resolve => exact resolve_control hstep
  | exit =>
    dsimp only [CommandCoordinator.step] at hstep
    split at hstep
    next hidle hsafety hqueue =>
      obtain ⟨hstopping, ⟨⟩⟩ := Option.ite_none_right_eq_some.mp hstep
      refine .exited hidle (fun priority => ?_) hstopping
      cases priority with
      | normal => exact hqueue
      | safety => exact hsafety
    next => cases hstep
  | markAccepted ticket acceptedSequence =>
    obtain ⟨-, ⟨⟩⟩ := Option.ite_none_right_eq_some.mp hstep
    exact transition_control ticket _
  | deferCompletion caller =>
    obtain ⟨-, ⟨⟩⟩ := Option.ite_none_right_eq_some.mp hstep
    unfold CommandCoordinator.deferCompletion
    split
    next item deferred hworker =>
      simp only [record, CommandCoordinator.running, hworker]
      exact .deferred item deferred caller hworker
    next hother =>
      have hnone : history.coordinator.running = none := by
        unfold CommandCoordinator.running
        split
        next item deferred hworker => exact absurd hworker (hother item deferred)
        next => rfl
      simp only [record, hnone, Option.toList_none, List.map_nil, List.append_nil]
      exact .noted _ fun _ h => h
  | markCompleted ticket =>
    obtain ⟨-, ⟨⟩⟩ := Option.ite_none_right_eq_some.mp hstep
    exact transition_control ticket _
  | markFailed ticket error =>
    obtain ⟨-, ⟨⟩⟩ := Option.ite_none_right_eq_some.mp hstep
    exact transition_control ticket _
  | observe index policy =>
    have hmoved := CommandCoordinator.step_moved hstep
    dsimp only [CommandCoordinator.step] at hstep
    split at hstep
    next => cases hstep
    next ticket hticket =>
      cases hstep
      refine noted hmoved rfl rfl rfl (CommandCoordinator.sequences_setTicket hticket ?_) rfl rfl
      exact congrArg CommandResult.sequence (ticket.observe_result policy _)
  | call index =>
    have hmoved := CommandCoordinator.step_moved hstep
    dsimp only [CommandCoordinator.step] at hstep
    split at hstep
    next call rest hcalling =>
      cases hstep
      exact noted hmoved rfl rfl rfl rfl rfl rfl
    next => cases hstep

end CommandHistory

end LinuxcncCtrl
