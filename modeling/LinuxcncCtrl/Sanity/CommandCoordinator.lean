import LinuxcncCtrl.Lib.Counting
import LinuxcncCtrl.Spec.CommandCoordinator

/-! What a step does to the tickets and their observers. An observer is in exactly one place: with its
ticket, among the calls to be made, or among the calls made. -/

namespace LinuxcncCtrl

open Lib

def CommandResult.Moves (result result' : CommandResult) : Prop :=
  result' = result ∨
    result.state = .queued ∧ result'.state = .accepted ∧ result'.sequence = result.sequence ∨
    result.state.terminal = false ∧ result'.state.terminal = true ∧
      result'.sequence = result.sequence ∧ result'.acceptedSequence = result.acceptedSequence

namespace CommandTicketState

variable {ticket : CommandTicketState}

section

variable (ticket : CommandTicketState)

/-- A transition does nothing, or moves the ticket and calls the observers that are ready for it. -/
theorem transition_cases (transition : CommandTransition) :
    ticket.transition transition = (ticket, []) ∨
      ∃ result, ticket.result.Moves result ∧ ticket.result.state.terminal = false ∧
        result.state = transition.state ∧
        ticket.transition transition =
          ({ result,
             observers := ticket.observers.filter fun observer =>
               !observer.policy.ready transition.state },
            (ticket.observers.filter fun observer => observer.policy.ready transition.state).map
              fun observer => ⟨observer.observer, result⟩) := by
  unfold CommandTicketState.transition
  split_ifs with hterminal hlate
  · exact .inl rfl
  · exact .inl rfl
  · have hfalse := Bool.eq_false_of_not_eq_true hterminal
    refine .inr ⟨_, ?_, hfalse, rfl, rfl⟩
    cases transition with
    | accepted acceptedSequence =>
      refine .inr (.inl ⟨?_, rfl, rfl⟩)
      by_contra hne
      exact hlate ⟨rfl, hne⟩
    | completed => exact .inr (.inr ⟨hfalse, rfl, rfl, rfl⟩)
    | failed error => exact .inr (.inr ⟨hfalse, rfl, rfl, rfl⟩)

theorem transition_moves (transition : CommandTransition) :
    ticket.result.Moves (ticket.transition transition).1.result := by
  rcases ticket.transition_cases transition with heq | ⟨result, hmoves, -, -, heq⟩
  · rw [heq]
    exact .inl rfl
  · rw [heq]
    exact hmoves

theorem observe_cases (policy : CommandWaitPolicy) (observer : ℕ) :
    (policy.ready ticket.result.state = true ∧
        ticket.observe policy observer = (ticket, [⟨observer, ticket.result⟩])) ∨
      policy.ready ticket.result.state = false ∧
        ticket.observe policy observer =
          ({ ticket with observers := ticket.observers ++ [⟨policy, observer⟩] }, []) := by
  unfold observe
  split_ifs with hready
  · exact .inl ⟨hready, rfl⟩
  · exact .inr ⟨Bool.eq_false_of_not_eq_true hready, rfl⟩

theorem observe_result (policy : CommandWaitPolicy) (observer : ℕ) :
    (ticket.observe policy observer).1.result = ticket.result := by
  rcases ticket.observe_cases policy observer with ⟨-, heq⟩ | ⟨-, heq⟩ <;> rw [heq]

end

end CommandTicketState

/-- The tickets, the observations made of them and the calls. -/
structure CommandLedger where
  tickets : List CommandTicketState
  observations : List CommandObservation
  calling : List (List ObserverCall)
  calls : List ObserverCall

namespace CommandLedger

variable (ledger : CommandLedger)

/-- One ticket is replaced, and the calls it has collected join those to be made. -/
def replace (index : ℕ) (updated : CommandTicketState × List ObserverCall)
    (observations : List CommandObservation) : CommandLedger :=
  { ledger with
    tickets := ledger.tickets.set index updated.1
    observations := ledger.observations ++ observations
    calling := ledger.calling ++ [updated.2] }

inductive Moved : CommandLedger → Prop
  | kept : Moved ledger
  | submitted (sequence : ℕ) : Moved { ledger with tickets := ledger.tickets ++ [⟨{ sequence }, []⟩] }
  | transitioned {index : ℕ} {ticket : CommandTicketState} (transition : CommandTransition)
      (hticket : ledger.tickets[index]? = some ticket) :
      Moved (ledger.replace index (ticket.transition transition) [])
  | observed {index : ℕ} {ticket : CommandTicketState} (policy : CommandWaitPolicy)
      (hticket : ledger.tickets[index]? = some ticket) :
      Moved (ledger.replace index (ticket.observe policy ledger.observations.length)
        [⟨ledger.observations.length, index, policy⟩])
  | called {index : ℕ} {call : ObserverCall} {rest : List ObserverCall}
      (hcalling : ledger.calling[index]? = some (call :: rest)) :
      Moved { ledger with calling := ledger.calling.set index rest, calls := ledger.calls ++ [call] }

end CommandLedger

namespace CommandCoordinator

variable {coordinator coordinator' : CommandCoordinator}

def ledger (coordinator : CommandCoordinator) : CommandLedger :=
  ⟨coordinator.tickets, coordinator.observations, coordinator.calling, coordinator.calls⟩

theorem moved_submit (coordinator : CommandCoordinator) (withContext : Bool) (priority : CommandPriority) :
    coordinator.ledger.Moved (coordinator.submit withContext priority).2.ledger := by
  unfold submit
  by_cases hstopping : coordinator.stopping = true
  · rw [if_pos hstopping]
    exact .kept
  · rw [if_neg hstopping]
    split_ifs
    · exact .kept
    · cases priority <;> exact .submitted _

theorem moved_transition (coordinator : CommandCoordinator) (index : ℕ) (transition : CommandTransition) :
    coordinator.ledger.Moved (coordinator.transition index transition).ledger := by
  unfold CommandCoordinator.transition
  split
  next => exact .kept
  next ticket hticket =>
    have hmoved : coordinator.ledger.Moved _ := .transitioned transition hticket
    rwa [CommandLedger.replace, List.append_nil] at hmoved

theorem step_moved {action : CommandCoordinatorAction}
    (h : coordinator.step action = some coordinator') :
    coordinator.ledger.Moved coordinator'.ledger := by
  cases action with
  | submit withContext priority =>
    cases h
    exact moved_submit coordinator withContext priority
  | stop =>
    cases h
    exact .kept
  | take =>
    dsimp only [step] at h
    split at h
    next =>
      cases h
      exact .kept
    next =>
      cases h
      exact .kept
    next => cases h
  | finish outcome =>
    dsimp only [step] at h
    split at h
    next =>
      cases h
      exact .kept
    next => cases h
  | resolve =>
    dsimp only [step] at h
    split at h
    next ticket next rest hworker =>
      cases h
      exact moved_transition { coordinator with worker := .resolving ticket rest } ticket next
    next =>
      cases h
      exact .kept
    next => cases h
  | exit =>
    dsimp only [step] at h
    split at h
    next =>
      obtain ⟨-, ⟨⟩⟩ := Option.ite_none_right_eq_some.mp h
      exact .kept
    next => cases h
  | markAccepted ticket acceptedSequence =>
    obtain ⟨-, ⟨⟩⟩ := Option.ite_none_right_eq_some.mp h
    exact moved_transition _ ticket _
  | deferCompletion ticket =>
    obtain ⟨-, ⟨⟩⟩ := Option.ite_none_right_eq_some.mp h
    unfold CommandCoordinator.deferCompletion
    split
    next => exact .kept
    next => exact .kept
  | markCompleted ticket =>
    obtain ⟨-, ⟨⟩⟩ := Option.ite_none_right_eq_some.mp h
    exact moved_transition _ ticket _
  | markFailed ticket error =>
    obtain ⟨-, ⟨⟩⟩ := Option.ite_none_right_eq_some.mp h
    exact moved_transition _ ticket _
  | observe index policy =>
    dsimp only [step] at h
    split at h
    next => cases h
    next ticket hticket =>
      cases h
      exact .observed policy hticket
  | call index =>
    dsimp only [step] at h
    split at h
    next call rest hcalling =>
      cases h
      exact .called hcalling
    next => cases h

end CommandCoordinator

end LinuxcncCtrl
