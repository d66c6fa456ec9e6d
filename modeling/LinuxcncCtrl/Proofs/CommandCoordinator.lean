import LinuxcncCtrl.Sanity.CommandCoordinator

/-! Every ticket resolves once and every observer is called once, for transitions, observations and
calls of any threads in any order. -/

namespace LinuxcncCtrl

open Lib

variable {result result' : CommandResult}

theorem CommandResult.Moves.sequence (h : result.Moves result') : result'.sequence = result.sequence := by
  rcases h with rfl | ⟨-, -, hsequence⟩ | ⟨-, -, hsequence, -⟩
  · rfl
  · exact hsequence
  · exact hsequence

theorem CommandResult.Moves.eq_of_terminal
    (h : result.Moves result') (hterminal : result.state.terminal = true) : result' = result := by
  rcases h with heq | ⟨hqueued, -⟩ | ⟨hfalse, -⟩
  · exact heq
  · rw [hqueued] at hterminal
    cases hterminal
  · cases hterminal.symm.trans hfalse

namespace CommandLedger

variable {ledger ledger' : CommandLedger}

def waiting (ledger : CommandLedger) : List ℕ :=
  ledger.tickets.flatMap fun ticket => ticket.observers.map PendingObserver.observer

def toCall (ledger : CommandLedger) : List ℕ :=
  ledger.calling.flatMap (List.map ObserverCall.observer)

/-- The call is for an observation whose policy its result satisfies, of the ticket it is from. -/
def Satisfied (ledger : CommandLedger) (call : ObserverCall) : Prop :=
  ∃ observation ∈ ledger.observations, observation.observer = call.observer ∧
    observation.policy.ready call.result.state = true ∧
    ∃ ticket, ledger.tickets[observation.ticket]? = some ticket ∧
      ticket.result.sequence = call.result.sequence

structure Inv (ledger : CommandLedger) : Prop where
  numbered : ∀ (index : ℕ) (observation : CommandObservation),
    ledger.observations[index]? = some observation → observation.observer = index
  placed : ∀ id, ledger.waiting.count id + ledger.toCall.count id +
    (ledger.calls.map ObserverCall.observer).count id = if id < ledger.observations.length then 1 else 0
  settled : ∀ (index : ℕ) (ticket : CommandTicketState),
    ledger.tickets[index]? = some ticket → ticket.result.state.terminal = true → ticket.observers = []
  watching : ∀ (index : ℕ) (ticket : CommandTicketState),
    ledger.tickets[index]? = some ticket → ∀ observer ∈ ticket.observers,
    { observer with ticket := index } ∈ ledger.observations
  calling : ∀ batch ∈ ledger.calling, ∀ call ∈ batch, ledger.Satisfied call
  called : ∀ call ∈ ledger.calls, ledger.Satisfied call

variable {index : ℕ}

theorem replaced_ticket {ticket ticket' : CommandTicketState}
    (hticket : ledger.tickets[index]? = some ticket) (other : ℕ) :
    (ledger.tickets.set index ticket')[other]? =
      if other = index then some ticket' else ledger.tickets[other]? := by
  by_cases hother : other = index
  · rw [if_pos hother, hother, List.getElem?_set_self (List.getElem?_eq_some_iff.mp hticket).1]
  · rw [if_neg hother, List.getElem?_set_ne (Ne.symm hother)]

theorem Moved.ticket (h : Moved ledger ledger') {ticket : CommandTicketState}
    (hticket : ledger.tickets[index]? = some ticket) :
    ∃ ticket', ledger'.tickets[index]? = some ticket' ∧ ticket.result.Moves ticket'.result := by
  have hset : ∀ {changed : ℕ} {before : CommandTicketState} (after : CommandTicketState),
      ledger.tickets[changed]? = some before → before.result.Moves after.result →
      ∃ ticket', (ledger.tickets.set changed after)[index]? = some ticket' ∧
        ticket.result.Moves ticket'.result := by
    intro changed before after hbefore hmoves
    rw [replaced_ticket hbefore]
    split_ifs with hindex
    · subst hindex
      cases hbefore.symm.trans hticket
      exact ⟨after, rfl, hmoves⟩
    · exact ⟨ticket, hticket, .inl rfl⟩
  cases h with
  | kept => exact ⟨ticket, hticket, .inl rfl⟩
  | submitted sequence =>
    have hlt := (List.getElem?_eq_some_iff.mp hticket).1
    exact ⟨ticket, (List.getElem?_append_left hlt).trans hticket, .inl rfl⟩
  | transitioned transition hbefore => exact hset _ hbefore (CommandTicketState.transition_moves _ _)
  | observed policy hbefore => exact hset _ hbefore (.inl (CommandTicketState.observe_result _ _ _))
  | called _ => exact ⟨ticket, hticket, .inl rfl⟩

theorem Moved.observations (h : Moved ledger ledger') {observation : CommandObservation}
    (hmem : observation ∈ ledger.observations) : observation ∈ ledger'.observations := by
  cases h with
  | transitioned _ _ | observed _ _ => exact List.mem_append_left _ hmem
  | _ => exact hmem

theorem Satisfied.moved {call : ObserverCall} (h : ledger.Satisfied call) (hmoved : Moved ledger ledger') :
    ledger'.Satisfied call := by
  obtain ⟨observation, hmem, hobserver, hready, ticket, hticket, hsequence⟩ := h
  obtain ⟨ticket', hticket', hmoves⟩ := hmoved.ticket hticket
  exact ⟨observation, hmoved.observations hmem, hobserver, hready, ticket', hticket',
    hmoves.sequence.trans hsequence⟩

theorem Inv.submitted (h : ledger.Inv) (sequence : ℕ) :
    Inv { ledger with tickets := ledger.tickets ++ [⟨{ sequence }, []⟩] } := by
  have hmoved : ledger.Moved _ := .submitted sequence
  have hticket : ∀ (index : ℕ) (ticket : CommandTicketState),
      (ledger.tickets ++ [⟨{ sequence }, []⟩])[index]? = some ticket →
      ledger.tickets[index]? = some ticket ∨ ticket.observers = [] := by
    intro index ticket hticket
    rw [List.getElem?_append] at hticket
    split_ifs at hticket
    · exact .inl hticket
    · rw [List.mem_singleton.mp (List.mem_of_getElem? hticket)]
      exact .inr rfl
  refine ⟨h.numbered, fun id => ?_, ?_, ?_, ?_, ?_⟩
  · unfold waiting
    rw [List.flatMap_append, List.flatMap_singleton, List.map_nil, List.append_nil]
    exact h.placed id
  · intro index ticket hfound hterminal
    rcases hticket index ticket hfound with hbefore | hnone
    · exact h.settled index ticket hbefore hterminal
    · exact hnone
  · intro index ticket hfound observer hobserver
    rcases hticket index ticket hfound with hbefore | hnone
    · exact h.watching index ticket hbefore observer hobserver
    · rw [hnone] at hobserver
      cases hobserver
  · exact fun batch hbatch call hcall => (h.calling batch hbatch call hcall).moved hmoved
  · exact fun call hcall => (h.called call hcall).moved hmoved

section

variable {ticket : CommandTicketState} (h : ledger.Inv) (hticket : ledger.tickets[index]? = some ticket)

include h hticket

/-- The observers that the new ticket has not go to the calls to be made. -/
theorem Inv.replaced {updated : CommandTicketState × List ObserverCall}
    {extra : List CommandObservation} (hmoved : ledger.Moved (ledger.replace index updated extra))
    (hextra : extra = [] ∨ ∃ policy, extra = [⟨ledger.observations.length, index, policy⟩])
    (hcount : ∀ id, (updated.1.observers.map PendingObserver.observer).count id +
        (updated.2.map ObserverCall.observer).count id =
      (ticket.observers.map PendingObserver.observer).count id +
        (extra.map CommandObservation.observer).count id)
    (hsettled : updated.1.result.state.terminal = true → updated.1.observers = [])
    (hwatching : ∀ observer ∈ updated.1.observers,
      { observer with ticket := index } ∈ ledger.observations ++ extra)
    (hbatch : ∀ call ∈ updated.2, call.result = updated.1.result ∧ ∃ policy,
      policy.ready updated.1.result.state = true ∧ ⟨call.observer, index, policy⟩ ∈ ledger.observations ++ extra) :
    (ledger.replace index updated extra).Inv := by
  have hget : ∀ other, (ledger.replace index updated extra).tickets[other]? = _ :=
    replaced_ticket hticket
  refine ⟨?_, fun id => ?_, ?_, ?_, ?_, fun call hcall => (h.called call hcall).moved hmoved⟩
  · intro other observation hobservation
    simp only [replace, List.getElem?_append] at hobservation
    split_ifs at hobservation with hother
    · exact h.numbered other observation hobservation
    · rcases hextra with rfl | ⟨policy, rfl⟩
      · cases hobservation
      · have hzero := (List.getElem?_eq_some_iff.mp hobservation).1
        rw [List.length_singleton] at hzero
        have hsame : other = ledger.observations.length := by omega
        rw [hsame, Nat.sub_self] at hobservation
        rw [hsame, ← Option.some.inj hobservation]
  · have hplaced := h.placed id
    have hset := count_flatMap_set
      (fun ticket : CommandTicketState => ticket.observers.map PendingObserver.observer) hticket updated.1 id
    have hnew := hcount id
    have hbound : (if id < (ledger.replace index updated extra).observations.length then 1 else 0) =
        (if id < ledger.observations.length then 1 else 0) + (extra.map CommandObservation.observer).count id := by
      rw [replace, List.length_append]
      rcases hextra with rfl | ⟨policy, rfl⟩
      · rfl
      · exact count_succ ledger.observations.length id
    unfold waiting toCall at hplaced ⊢
    rw [hbound]
    simp only [replace, List.flatMap_append, List.count_append, List.flatMap_singleton]
    omega
  · intro other found hfound hterminal
    rw [hget] at hfound
    split_ifs at hfound with hother
    · cases hfound
      exact hsettled hterminal
    · exact h.settled other found hfound hterminal
  · intro other found hfound observer hobserver
    rw [hget] at hfound
    split_ifs at hfound with hother
    · cases hfound
      rw [hother]
      exact hwatching observer hobserver
    · exact List.mem_append_left _ (h.watching other found hfound observer hobserver)
  · intro other hother call hcall
    rcases List.mem_append.mp hother with hbefore | hnew
    · exact (h.calling other hbefore call hcall).moved hmoved
    · rw [List.mem_singleton.mp hnew] at hcall
      obtain ⟨hresult, policy, hready, hmem⟩ := hbatch call hcall
      refine ⟨_, hmem, rfl, hresult ▸ hready, updated.1, ?_, hresult ▸ rfl⟩
      rw [hget, if_pos rfl]

theorem Inv.transitioned (transition : CommandTransition) :
    (ledger.replace index (ticket.transition transition) []).Inv := by
  have hwatching := h.watching index ticket hticket
  refine h.replaced hticket (.transitioned transition hticket) (.inl rfl) ?_ ?_ ?_ ?_
  all_goals
    rcases ticket.transition_cases transition with heq | ⟨result, -, -, hstate, heq⟩
    all_goals rw [heq]
  · exact fun id => rfl
  · -- the observers are split by whether they are ready
    intro id
    have hsplit := (List.filter_append_perm
      (fun observer : PendingObserver => observer.policy.ready transition.state)
      ticket.observers).map PendingObserver.observer
    have hcount := hsplit.count_eq id
    rw [List.map_append, List.count_append] at hcount
    rw [List.map_map, List.map_nil, List.count_nil]
    exact (Nat.add_comm _ _).trans hcount
  · exact h.settled index ticket hticket
  · intro hterminal
    refine List.filter_eq_nil_iff.mpr fun observer _ => ?_
    rw [CommandWaitPolicy.ready, ← hstate, hterminal]
    exact Bool.false_ne_true
  · exact fun observer hobserver => List.mem_append_left _ (hwatching observer hobserver)
  · exact fun observer hobserver =>
      List.mem_append_left _ (hwatching observer (List.mem_of_mem_filter hobserver))
  · exact nofun
  · intro call hcall
    obtain ⟨observer, hobserver, rfl⟩ := List.mem_map.mp hcall
    obtain ⟨hmem, hready⟩ := List.mem_filter.mp hobserver
    exact ⟨rfl, observer.policy, hstate ▸ hready, List.mem_append_left _ (hwatching observer hmem)⟩

theorem Inv.observed (policy : CommandWaitPolicy) :
    (ledger.replace index (ticket.observe policy ledger.observations.length)
      [⟨ledger.observations.length, index, policy⟩]).Inv := by
  have hnew : ⟨ledger.observations.length, index, policy⟩ ∈
      ledger.observations ++ [⟨ledger.observations.length, index, policy⟩] :=
    List.mem_append_right _ (List.mem_singleton_self _)
  have hwatching : ∀ observer ∈ ticket.observers, { observer with ticket := index } ∈
      ledger.observations ++ [⟨ledger.observations.length, index, policy⟩] :=
    fun observer hobserver => List.mem_append_left _ (h.watching index ticket hticket observer hobserver)
  refine h.replaced hticket (.observed policy hticket) (.inr ⟨policy, rfl⟩) ?_ ?_ ?_ ?_
  all_goals
    rcases ticket.observe_cases policy ledger.observations.length with ⟨hready, heq⟩ | ⟨hready, heq⟩
    all_goals rw [heq]
  · exact fun id => rfl
  · intro id
    rw [List.map_append, List.count_append]
    rfl
  · exact h.settled index ticket hticket
  · intro hterminal
    rw [CommandWaitPolicy.ready, hterminal] at hready
    cases hready
  · exact hwatching
  · intro observer hobserver
    rcases List.mem_append.mp hobserver with hbefore | hadded
    · exact hwatching observer hbefore
    · rw [List.mem_singleton.mp hadded]
      exact hnew
  · intro call hcall
    rw [List.mem_singleton.mp hcall]
    exact ⟨rfl, policy, hready, hnew⟩
  · exact nofun

end

theorem Inv.call (h : ledger.Inv) {call : ObserverCall} {rest : List ObserverCall}
    (hindex : ledger.calling[index]? = some (call :: rest)) :
    Inv { ledger with calling := ledger.calling.set index rest, calls := ledger.calls ++ [call] } := by
  have hmoved : ledger.Moved _ := .called hindex
  have hmem := List.mem_of_getElem? hindex
  refine ⟨h.numbered, fun id => ?_, h.settled, h.watching, ?_, ?_⟩
  · have hplaced := h.placed id
    have hset := count_flatMap_set (List.map ObserverCall.observer) hindex rest id
    have hcons : (List.map ObserverCall.observer (call :: rest)).count id =
        (rest.map ObserverCall.observer).count id + ([call].map ObserverCall.observer).count id := by
      rw [List.map_cons, ← List.singleton_append, List.count_append, Nat.add_comm]
      rfl
    simp only [waiting, toCall, List.map_append, List.count_append] at hplaced ⊢
    omega
  · intro batch hbatch other hother
    rcases List.mem_or_eq_of_mem_set hbatch with hbefore | rfl
    · exact (h.calling batch hbefore other hother).moved hmoved
    · exact (h.calling _ hmem other (List.mem_cons_of_mem _ hother)).moved hmoved
  · intro other hother
    rcases List.mem_append.mp hother with hbefore | hnew
    · exact (h.called other hbefore).moved hmoved
    · rw [List.mem_singleton.mp hnew]
      exact (h.calling _ hmem call List.mem_cons_self).moved hmoved

theorem Inv.moved (h : ledger.Inv) (hmoved : Moved ledger ledger') : ledger'.Inv := by
  cases hmoved with
  | kept => exact h
  | submitted sequence => exact h.submitted sequence
  | transitioned transition hticket => exact h.transitioned hticket transition
  | observed policy hticket => exact h.observed hticket policy
  | called hcalling => exact h.call hcalling

theorem inv_empty : Inv ⟨[], [], [], []⟩ where
  numbered index observation hobservation := by cases hobservation
  placed id := rfl
  settled index ticket hticket := by cases hticket
  watching index ticket hticket := by cases hticket
  calling batch hbatch := by cases hbatch
  called call hcall := by cases hcall

theorem Inv.observation_unique (h : ledger.Inv) {first second : CommandObservation}
    (hfirst : first ∈ ledger.observations) (hsecond : second ∈ ledger.observations)
    (hsame : first.observer = second.observer) : first = second := by
  obtain ⟨index, hindex⟩ := List.mem_iff_getElem?.mp hfirst
  obtain ⟨index', hindex'⟩ := List.mem_iff_getElem?.mp hsecond
  rw [h.numbered index first hindex, h.numbered index' second hindex'] at hsame
  rw [hsame] at hindex
  exact Option.some.inj (hindex.symm.trans hindex')

/-- An observer of a resolved ticket has been called or is about to be. -/
theorem Inv.resolved (h : ledger.Inv) {ticket : CommandTicketState}
    (hticket : ledger.tickets[index]? = some ticket)
    (hterminal : ticket.result.state.terminal = true) {observation : CommandObservation}
    (hmem : observation ∈ ledger.observations) (hindex : observation.ticket = index) :
    observation.observer ∈ ledger.toCall ∨
      observation.observer ∈ ledger.calls.map ObserverCall.observer := by
  have hbound : observation.observer < ledger.observations.length := by
    obtain ⟨place, hplace⟩ := List.mem_iff_getElem?.mp hmem
    rw [h.numbered place observation hplace]
    exact (List.getElem?_eq_some_iff.mp hplace).1
  have hplaced := h.placed observation.observer
  rw [if_pos hbound] at hplaced
  have hnowhere : ledger.waiting.count observation.observer = 0 := by
    refine List.count_eq_zero.mpr fun hwaiting => ?_
    obtain ⟨other, hother, hobserver⟩ := List.mem_flatMap.mp hwaiting
    obtain ⟨observer, hobserver, hsame⟩ := List.mem_map.mp hobserver
    obtain ⟨place, hplace⟩ := List.mem_iff_getElem?.mp hother
    have hwatching := h.watching place other hplace observer hobserver
    have heq := h.observation_unique hwatching hmem hsame
    have hsameTicket : place = index := (congrArg CommandObservation.ticket heq).trans hindex
    rw [hsameTicket] at hplace
    obtain rfl := Option.some.inj (hplace.symm.trans hticket)
    rw [h.settled index other hticket hterminal] at hobserver
    cases hobserver
  by_contra hneither
  obtain ⟨htoCall, hcalls⟩ := not_or.mp hneither
  rw [hnowhere, List.count_eq_zero.mpr htoCall, List.count_eq_zero.mpr hcalls] at hplaced
  cases hplaced

end CommandLedger

namespace CommandCoordinator

variable {coordinator coordinator' : CommandCoordinator} {index : ℕ}

def toCall (coordinator : CommandCoordinator) : List ℕ := coordinator.ledger.toCall

def Satisfied (coordinator : CommandCoordinator) (call : ObserverCall) : Prop := coordinator.ledger.Satisfied call

theorem terminal_run {actions : List CommandCoordinatorAction}
    (hrun : Run step coordinator actions coordinator') {ticket : CommandTicketState}
    (hticket : coordinator.tickets[index]? = some ticket)
    (hterminal : ticket.result.state.terminal = true) :
    ∃ ticket', coordinator'.tickets[index]? = some ticket' ∧ ticket'.result = ticket.result := by
  induction hrun with
  | nil => exact ⟨ticket, hticket, rfl⟩
  | snoc _ hstep ih =>
    obtain ⟨ticket', hticket', hresult⟩ := ih
    obtain ⟨ticket'', hticket'', hmoves⟩ := (step_moved hstep).ticket hticket'
    refine ⟨ticket'', hticket'', (hmoves.eq_of_terminal ?_).trans hresult⟩
    rw [hresult]
    exact hterminal

/-- Every ticket resolves once and every observer is called once. In every state the coordinator
reaches: a step moves a ticket forward or leaves its result, and sets its accepted sequence only when
it accepts it; the result of a resolved ticket stays for good; no observer is called twice, counting
the calls that are still to be made; each call has a result of the ticket it observes that satisfies
its policy; and a resolved ticket has no observer left that is not called or about to be. -/
theorem commandTickets_resolveOnce {capacity safetyCapacity : ℕ} {actions : List CommandCoordinatorAction}
    (hrun : Run step (construct capacity safetyCapacity) actions coordinator) :
    (∀ action coordinator', coordinator.step action = some coordinator' →
      ∀ (index : ℕ) (ticket : CommandTicketState), coordinator.tickets[index]? = some ticket →
      ∃ ticket', coordinator'.tickets[index]? = some ticket' ∧ ticket.result.Moves ticket'.result) ∧
    (∀ later coordinator', Run step coordinator later coordinator' →
      ∀ (index : ℕ) (ticket : CommandTicketState), coordinator.tickets[index]? = some ticket →
      ticket.result.state.terminal = true →
      ∃ ticket', coordinator'.tickets[index]? = some ticket' ∧ ticket'.result = ticket.result) ∧
    (coordinator.toCall ++ coordinator.calls.map ObserverCall.observer).Nodup ∧
    (∀ call ∈ coordinator.calls, coordinator.Satisfied call) ∧
    (∀ (index : ℕ) (ticket : CommandTicketState), coordinator.tickets[index]? = some ticket →
      ticket.result.state.terminal = true → ticket.observers = [] ∧
      ∀ observation ∈ coordinator.observations, observation.ticket = index →
        observation.observer ∈ coordinator.toCall ∨
          observation.observer ∈ coordinator.calls.map ObserverCall.observer) := by
  have hinv : coordinator.ledger.Inv := by
    apply hrun.invariant (P := fun coordinator => coordinator.ledger.Inv)
    · exact CommandLedger.inv_empty
    · exact fun _ _ _ hstep h => h.moved (step_moved hstep)
  refine ⟨?_, ?_, ?_, hinv.called, ?_⟩
  · intro action coordinator' hstep index ticket hticket
    exact (step_moved hstep).ticket hticket
  · intro later coordinator' hlater index ticket hticket hterminal
    exact terminal_run hlater hticket hterminal
  · refine List.nodup_iff_count_le_one.mpr fun id => ?_
    have hplaced := hinv.placed id
    rw [List.count_append, toCall]
    change _ + _ + (coordinator.calls.map ObserverCall.observer).count id = _ at hplaced
    split_ifs at hplaced <;> omega
  · intro index ticket hticket hterminal
    refine ⟨hinv.settled index ticket hticket hterminal, fun observation hmem hindex => ?_⟩
    exact hinv.resolved hticket hterminal hmem hindex

/-! A deferred command is accepted, observed, and resolved by a late callback that comes twice. -/

def deferredActions : List CommandCoordinatorAction :=
  [.submit true .normal, .observe 0 .accepted, .observe 0 .completed, .take, .markAccepted 0 7,
    .call 2, .deferCompletion 0, .finish .returned, .resolve, .markCompleted 0, .markFailed 0 "late",
    .observe 0 .completed, .call 3, .call 5]

def deferredDone : CommandCoordinator :=
  (exec step (construct 8 2) deferredActions).getD (construct 8 2)

theorem deferredDone_run : Run step (construct 8 2) deferredActions deferredDone :=
  .of_exec rfl

theorem commandTickets_resolveOnce_deferred :
    deferredDone.calls.map (fun call => (call.observer, call.result.state)) =
        [(0, .accepted), (1, .completed), (2, .completed)] ∧
      (deferredDone.tickets[0]?).map CommandTicketState.result = some ⟨1, 7, .completed, ""⟩ ∧
      (deferredDone.toCall ++ deferredDone.calls.map ObserverCall.observer).Nodup :=
  ⟨rfl, rfl, (commandTickets_resolveOnce deferredDone_run).2.2.1⟩

end CommandCoordinator

end LinuxcncCtrl
