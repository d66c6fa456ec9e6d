import LinuxcncCtrl.Sanity.ProgramPreview
import LinuxcncCtrl.Spec.PreviewSession

/-! What coalescing keeps, and what a preview that is not cancelled keeps: the events the worker has sent
are on their way in order, and the flow counts the batches among them. -/

namespace LinuxcncCtrl

open Lib

variable {O : Type}

namespace PreviewEvent.Coalesced

variable {sent delivered : List (PreviewEvent O)}

section

variable (h : Coalesced sent delivered)

include h

theorem filter_eq (p : PreviewEvent O → Bool) (hp : ∀ event, event.isProgress = true → p event = false) :
    delivered.filter p = sent.filter p := by
  induction h with
  | nil => rfl
  | keep _ ih => rw [List.filter_append, List.filter_append, ih]
  | replace hold hevent _ ih =>
    rename_i sent delivered old event _
    rw [List.filter_append, List.filter_cons_of_neg (by simp [hp old hold]), List.filter_nil,
      List.append_nil] at ih
    rw [List.filter_append, List.filter_append, ← ih,
      List.filter_cons_of_neg (by simp [hp event hevent]), List.filter_nil, List.append_nil]

theorem operations_eq : delivered.flatMap PreviewEvent.operations = sent.flatMap PreviewEvent.operations := by
  have hnone : ∀ event : PreviewEvent O, event.isProgress = true → event.operations = [] := by
    intro event hevent
    cases event <;> first | rfl | cases hevent
  induction h with
  | nil => rfl
  | keep _ ih => rw [List.flatMap_append, List.flatMap_append, ih]
  | replace hold hevent _ ih =>
    rename_i sent delivered old event _
    rw [List.flatMap_append, List.flatMap_singleton, hnone old hold, List.append_nil] at ih
    rw [List.flatMap_append, List.flatMap_append, ← ih, List.flatMap_singleton, hnone event hevent,
      List.append_nil]

theorem mem {event : PreviewEvent O} (hmem : event ∈ delivered) : event ∈ sent := by
  induction h with
  | nil => exact hmem
  | keep _ ih =>
    rcases List.mem_append.mp hmem with hold | hnew
    · exact List.mem_append_left _ (ih hold)
    · exact List.mem_append_right _ hnew
  | replace _ _ _ ih =>
    rcases List.mem_append.mp hmem with hold | hnew
    · exact List.mem_append_left _ (ih (List.mem_append_left _ hold))
    · exact List.mem_append_right _ hnew

theorem countP_terminal : delivered.countP PreviewEvent.isTerminal = sent.countP PreviewEvent.isTerminal := by
  rw [List.countP_eq_length_filter, List.countP_eq_length_filter, h.filter_eq]
  intro event hevent
  cases event <;> first | rfl | cases hevent

theorem getLast?_eq : delivered.getLast? = sent.getLast? := by
  cases h with
  | nil => rfl
  | keep _ => rw [List.getLast?_concat, List.getLast?_concat]
  | replace _ _ _ => rw [List.getLast?_concat, List.getLast?_concat]

end

end PreviewEvent.Coalesced

def Terminated (events : List (PreviewEvent O)) : Prop :=
  ∃ body terminal, events = body ++ [terminal] ∧ terminal.isTerminal = true ∧
    ∀ event ∈ body, event.isTerminal = false

theorem ParseContext.isTerminal_terminal (context : ParseContext O) :
    context.terminal.isTerminal = true := by
  unfold ParseContext.terminal
  cases context.thrown <;> rfl

theorem ParseContext.operations_terminal (context : ParseContext O) : context.terminal.operations = [] := by
  unfold ParseContext.terminal
  cases context.thrown <;> rfl

variable {limits : PreviewLimits O} {program : PreviewProgram O}

theorem previewEvents_terminated (hbatch : 0 < limits.batchSize)
    (program : PreviewProgram O) : Terminated (previewEvents limits program) := by
  unfold previewEvents
  split_ifs
  · exact ⟨_, _, rfl, ParseContext.isTerminal_terminal _,
      (ParseContext.sound_parseFile hbatch program).1.terminal⟩
  · exact ⟨[], _, rfl, rfl, nofun⟩

theorem previewEvents_fits (hbatch : 0 < limits.batchSize) {operations : List O}
    (h : .batch operations ∈ previewEvents limits program) :
    limits.Fits limits.batchSize operations := by
  unfold previewEvents at h
  split_ifs at h
  · rcases List.mem_append.mp h with hmem | hlast
    · exact (ParseContext.sound_parseFile hbatch program).1.fits operations hmem
    · have hterminal := ParseContext.isTerminal_terminal (ParseContext.parseFile limits program)
      rw [← List.mem_singleton.mp hlast] at hterminal
      cases hterminal
  · cases List.mem_singleton.mp h

theorem previewEvents_operations (hbatch : 0 < limits.batchSize) (program : PreviewProgram O) :
    (previewEvents limits program).flatMap PreviewEvent.operations <+: addedOperations limits program := by
  unfold previewEvents addedOperations
  split_ifs
  · rw [List.flatMap_append, List.flatMap_singleton, ParseContext.operations_terminal, List.append_nil]
    exact (ParseContext.sound_parseFile hbatch program).1.order
  · exact List.nil_prefix

theorem previewEvents_summary (hbatch : 0 < limits.batchSize) {count : ℕ}
    (h : (previewEvents limits program).getLast? = some (.summary count)) :
    (previewEvents limits program).flatMap PreviewEvent.operations = addedOperations limits program ∧
      count = (addedOperations limits program).length := by
  unfold previewEvents at h ⊢
  unfold addedOperations
  split_ifs at h ⊢
  · obtain ⟨hsound, hempty⟩ := ParseContext.sound_parseFile hbatch program
    rw [List.getLast?_concat, Option.some.injEq, ParseContext.terminal] at h
    cases hthrown : (ParseContext.parseFile limits program).thrown with
    | some error =>
      rw [hthrown] at h
      cases h
    | none =>
      rw [hthrown] at h
      have hwhole := hsound.whole hthrown
      rw [hempty hthrown, List.append_nil] at hwhole
      rw [List.flatMap_append, List.flatMap_singleton, ParseContext.operations_terminal, List.append_nil]
      exact ⟨hwhole, (PreviewEvent.summary.inj h).symm.trans hsound.count⟩
  · cases h

theorem Terminated.countP {events : List (PreviewEvent O)} (h : Terminated events) :
    events.countP PreviewEvent.isTerminal = 1 := by
  obtain ⟨body, terminal, rfl, hterminal, hbody⟩ := h
  rw [List.countP_append, List.countP_eq_zero.mpr fun event hevent => by simp [hbody event hevent],
    List.countP_singleton, if_pos hterminal]

theorem Terminated.right_nil {left right : List (PreviewEvent O)} (h : Terminated (left ++ right))
    {event : PreviewEvent O} (hevent : event ∈ left) (hterminal : event.isTerminal = true) :
    right = [] := by
  have hcount := h.countP
  rw [List.countP_append] at hcount
  have hleft : 0 < left.countP PreviewEvent.isTerminal := List.countP_pos_iff.mpr ⟨event, hevent, hterminal⟩
  by_contra hright
  obtain ⟨body, terminal, hevents, hlast, -⟩ := h
  have hgetLast := List.getLast?_eq_some_getLast hright
  generalize right.getLast hright = last at hgetLast
  have heq : (left ++ right).getLast? = some last := by
    rw [List.getLast?_append_of_ne_nil _ hright, hgetLast]
  rw [hevents, List.getLast?_concat] at heq
  have hpositive : 0 < right.countP PreviewEvent.isTerminal :=
    List.countP_pos_iff.mpr ⟨last, List.mem_of_getLast? hgetLast, Option.some.inj heq ▸ hlast⟩
  omega

theorem Terminated.coalesced {sent delivered : List (PreviewEvent O)} (h : Terminated sent)
    (hcoalesced : PreviewEvent.Coalesced sent delivered) : Terminated delivered := by
  have hcount := hcoalesced.countP_terminal.trans h.countP
  have hlast := hcoalesced.getLast?_eq
  obtain ⟨body, terminal, rfl, hterminal, -⟩ := h
  rw [List.getLast?_concat] at hlast
  obtain ⟨before, rfl⟩ := List.getLast?_eq_some_iff.mp hlast
  rw [List.countP_append, List.countP_singleton, if_pos hterminal] at hcount
  refine ⟨before, terminal, rfl, hterminal, fun event hevent => ?_⟩
  have hzero := List.countP_eq_zero.mp (Nat.succ.inj hcount) event hevent
  simpa using hzero

namespace PreviewSession

variable {events : List (PreviewEvent O)} {session session' : PreviewSession O}

structure Flows (events : List (PreviewEvent O)) (session : PreviewSession O) : Prop where
  live : session.Live
  order : session.processed ++ session.posted ++ session.script = events
  coalesced : PreviewEvent.Coalesced session.processed (session.written ++ session.queue)
  counted : session.flow.outstandingBatches = session.outstanding
  two : session.flow.outstandingBatches ≤ 2
  waiting : session.worker ≠ .running →
    ∃ operations rest, session.script = .batch operations :: rest
  full : session.worker = .deciding ∨ session.worker = .blocked →
    session.flow.outstandingBatches = 2
  active : ∀ event ∈ session.active, event ∈ session.written

/-- Between the callbacks the socket is busy while there is something to write. -/
structure Body (events : List (PreviewEvent O)) (session : PreviewSession O) : Prop where
  flows : session.Flows events
  pumped : session.closing = false → session.active = none → session.queue = []

/-- A `stop` or a `fail` has begun. -/
def Dying (session : PreviewSession O) : Prop :=
  session.flow.stopRequested = true ∨ session.closed = true ∨
    session.closeSteps.head? = some .fail ∨ session.closeSteps.head? = some .requestStop

theorem Live.not_dying (h : session.Live) : ¬ session.Dying := by
  rintro (hstop | hclosed | hfail | hrequest)
  · cases hstop.symm.trans h.1
  · cases hclosed.symm.trans h.2.1
  · rw [h.2.2] at hfail
    cases hfail
  · rw [h.2.2] at hrequest
    cases hrequest

theorem Flows.pump (h : session.Flows events) : session.pumpPreview.Body events := by
  unfold pumpPreview
  cases hqueue : session.queue with
  | nil => exact ⟨h, fun _ _ => hqueue⟩
  | cons event queue =>
    split_ifs with hbusy
    · refine ⟨h, fun _ hnone => ?_⟩
      rw [hnone, h.live.2.1] at hbusy
      rcases hbusy with hsome | hclosed
      · cases hsome
      · cases hclosed
    · have hidle : session.active = none :=
        Option.not_isSome_iff_eq_none.mp (not_or.mp hbusy).1
      refine ⟨⟨h.live, h.order, ?_, ?_, h.two, h.waiting, h.full, ?_⟩, fun _ hnone => nomatch hnone⟩
      · have hcoalesced := h.coalesced
        rw [hqueue] at hcoalesced
        simpa using hcoalesced
      · have hcounted := h.counted
        unfold outstanding at hcounted ⊢
        rw [hqueue, hidle] at hcounted
        simp only [List.countP_append, List.countP_cons, Option.toList_some, Option.toList_none,
          List.countP_nil] at hcounted ⊢
        omega
      · intro other hother
        rw [← Option.some.inj hother]
        exact List.mem_append_right _ List.mem_cons_self

variable {event : PreviewEvent O}

theorem Flows.enqueue (h : session.Flows events)
    {posted : List (PreviewEvent O)} (hposted : session.posted = event :: posted) :
    ({ session with posted }.enqueuePreview event).Body events := by
  have horder : session.processed ++ [event] ++ posted ++ session.script = events := by
    have horder := h.order
    rw [hposted] at horder
    simpa using horder
  unfold enqueuePreview
  rw [if_neg (by rw [h.live.2.1]; decide)]
  dsimp only
  split_ifs with hprogress
  · -- the report takes the place of the one at the end of the queue
    obtain ⟨hevent, last, hlast, hold⟩ := hprogress
    obtain ⟨queue, hqueue⟩ := List.getLast?_eq_some_iff.mp hlast
    have hnotBatch : ∀ report : PreviewEvent O, report.isProgress = true → report.isBatch = false := by
      intro report hreport
      cases report <;> first | rfl | cases hreport
    apply Flows.pump
    refine ⟨h.live, horder, ?_, ?_, h.two, h.waiting, h.full, h.active⟩
    · have hcoalesced := h.coalesced
      rw [hqueue, ← List.append_assoc] at hcoalesced
      have hreplaced := PreviewEvent.Coalesced.replace hold hevent hcoalesced
      rw [hqueue, List.dropLast_concat]
      simpa using hreplaced
    · have hcounted := h.counted
      unfold outstanding at hcounted ⊢
      rw [hposted, hqueue] at hcounted
      rw [hqueue, List.dropLast_concat]
      simp only [List.countP_append, List.countP_cons, List.countP_nil, hnotBatch event hevent,
        hnotBatch last hold, Bool.false_eq_true, if_false] at hcounted ⊢
      omega
  · apply Flows.pump
    refine ⟨h.live, horder, ?_, ?_, h.two, h.waiting, h.full, h.active⟩
    · have hkept : PreviewEvent.Coalesced (session.processed ++ [event])
          (session.written ++ session.queue ++ [event]) := .keep h.coalesced
      simpa using hkept
    · have hcounted := h.counted
      unfold outstanding at hcounted ⊢
      rw [hposted] at hcounted
      simp only [List.countP_append, List.countP_cons, List.countP_nil] at hcounted ⊢
      omega

theorem Flows.written_terminal (h : session.Flows events) (hevents : Terminated events)
    (hevent : event ∈ session.written)
    (hterminal : event.isTerminal = true) : session.queue = [] := by
  have hdelivered : event ∈ session.written ++ session.queue := List.mem_append_left _ hevent
  have hprocessed := h.coalesced.mem hdelivered
  have horder := h.order
  rw [List.append_assoc] at horder
  have hrest : session.posted ++ session.script = [] :=
    Terminated.right_nil (horder.symm ▸ hevents) hprocessed hterminal
  rw [hrest, List.append_nil] at horder
  have hdone : Terminated (session.written ++ session.queue) :=
    hevents.coalesced (horder ▸ h.coalesced)
  exact hdone.right_nil hevent hterminal

def ended (session : PreviewSession O) (event : PreviewEvent O) : PreviewSession O :=
  if event.isBatch then
    { session with
      active := none
      flow := { session.flow with
        outstandingBatches := session.flow.outstandingBatches - 1 } }.notifyAll
  else { session with active := none }

theorem onWrite_eq (session : PreviewSession O) (event : PreviewEvent O) : session.onWrite event =
      if (session.ended event).closing ∨ event.isTerminal then session.ended event
      else (session.ended event).pumpPreview :=
  rfl

theorem Flows.ended (h : session.Flows events) (hactive : session.active = some event)
    (hmutex : event.isBatch = true → session.mutexFree = true) :
    (session.ended event).Flows events := by
  have hcounted := h.counted
  unfold outstanding at hcounted
  rw [hactive] at hcounted
  simp only [List.countP_append, Option.toList_some, List.countP_singleton] at hcounted
  unfold PreviewSession.ended
  split_ifs with hbatch
  · have hfree : session.worker ≠ .testing ∧ session.worker ≠ .deciding :=
      of_decide_eq_true (hmutex hbatch)
    rw [if_pos hbatch] at hcounted
    have htwo := h.two
    refine ⟨h.live, h.order, h.coalesced, ?_, Nat.le_trans (Nat.sub_le _ _) htwo, fun hrunning => ?_,
      fun hfull => ?_, nofun⟩
    · unfold outstanding notifyAll
      simp only [List.countP_append, Option.toList_none, List.countP_nil]
      omega
    · apply h.waiting
      intro hworker
      exact hrunning (by unfold notifyAll; rw [hworker]; rfl)
    · -- the worker is not deciding, and if it was blocked it is notified now
      exfalso
      unfold notifyAll at hfull
      split_ifs at hfull with hblocked
      · rcases hfull with hfull | hfull <;> cases hfull
      · rcases hfull with hdeciding | hstill
        · exact hfree.2 hdeciding
        · exact hblocked hstill
  · refine { h with counted := ?_, active := nofun }
    unfold outstanding
    rw [if_neg hbatch] at hcounted
    simpa using hcounted

theorem ended_fields (session : PreviewSession O) (event : PreviewEvent O) :
    (session.ended event).queue = session.queue ∧ (session.ended event).closing = session.closing := by
  unfold ended
  split_ifs <;> exact ⟨rfl, rfl⟩

theorem Body.onWrite (h : session.Body events) (hevents : Terminated events)
    (hactive : session.active = some event)
    (hmutex : event.isBatch = true → session.mutexFree = true) :
    (session.onWrite event).Body events := by
  have hended := h.flows.ended hactive hmutex
  rw [onWrite_eq]
  split_ifs with hstay
  · refine ⟨hended, fun hclosing _ => ?_⟩
    have hterminal := hstay.resolve_left (by rw [hclosing]; decide)
    rw [(ended_fields session event).1]
    exact h.flows.written_terminal hevents (h.flows.active event hactive) hterminal
  · exact hended.pump

inductive Worked (session : PreviewSession O) : PreviewSession O → Prop
  | post {event : PreviewEvent O} {script : List (PreviewEvent O)}
      (hworker : session.worker = .running) (hscript : session.script = event :: script)
      (hbatch : ¬ event.isBatch = true) :
      Worked session { session with script, posted := session.posted ++ [event] }
  | lock {event : PreviewEvent O} {script : List (PreviewEvent O)}
      (hworker : session.worker = .running) (hscript : session.script = event :: script)
      (hbatch : event.isBatch = true) : Worked session { session with worker := .testing }
  | stopped (hworker : session.worker = .testing) (hstop : session.flow.stopRequested = true) :
      Worked session { session with worker := .running, script := [] }
  | admitted {event : PreviewEvent O} {script : List (PreviewEvent O)}
      (hworker : session.worker = .testing) (hscript : session.script = event :: script)
      (hroom : session.flow.outstandingBatches < 2) :
      Worked session { session with
        worker := .running
        flow := { session.flow with outstandingBatches := session.flow.outstandingBatches + 1 }
        script
        posted := session.posted ++ [event] }
  | full (hworker : session.worker = .testing) (hstop : ¬ session.flow.stopRequested = true)
      (hfull : ¬ session.flow.outstandingBatches < 2) :
      Worked session { session with worker := .deciding }
  | block (hworker : session.worker = .deciding) : Worked session { session with worker := .blocked }
  | relock (hworker : session.worker = .notified) : Worked session { session with worker := .testing }

theorem worked (h : session.work = some session') : Worked session session' := by
  unfold PreviewSession.work at h
  split at h
  · cases h
  · next hworker hscript =>
    split_ifs at h with hbatch
    · cases h
      exact .lock hworker hscript hbatch
    · cases h
      exact .post hworker hscript hbatch
  · next hworker hscript =>
    split_ifs at h with hstop hroom
    · cases h
      exact .stopped hworker hstop
    · cases h
      exact .admitted hworker hscript hroom
    · cases h
      exact .full hworker hstop hroom
  · next hworker _ =>
    cases h
    exact .block hworker
  · cases h
  · next hworker _ =>
    cases h
    exact .relock hworker

theorem Body.moved (h : session.Body events) {worker : PreviewWorker}
    (hwaiting : ∃ operations rest, session.script = .batch operations :: rest)
    (hfull : worker = .deciding ∨ worker = .blocked → session.flow.outstandingBatches = 2) :
    ({ session with worker } : PreviewSession O).Body events :=
  ⟨{ h.flows with waiting := fun _ => hwaiting, full := hfull }, h.pumped⟩

theorem Flows.order_posted (h : session.Flows events)
    {script : List (PreviewEvent O)} (hscript : session.script = event :: script) :
    session.processed ++ (session.posted ++ [event]) ++ script = events := by
  have horder := h.order
  rw [hscript] at horder
  simpa using horder

theorem Flows.outstanding_posted (h : session.Flows events) (event : PreviewEvent O) :
    (session.posted ++ [event] ++ session.queue ++ session.active.toList).countP
      PreviewEvent.isBatch = session.flow.outstandingBatches + event.isBatch.toNat := by
  have hcounted := h.counted
  unfold outstanding at hcounted
  simp only [List.countP_append, List.countP_singleton] at hcounted ⊢
  cases event.isBatch <;> simp <;> omega

theorem Body.work (h : session.Body events) (hworked : Worked session session') : session'.Body events := by
  have hflows := h.flows
  have hwaiting : session.worker ≠ .running →
      ∃ operations rest, session.script = .batch operations :: rest := hflows.waiting
  cases hworked with
  | post hworker hscript hbatch =>
    rename_i event script
    refine ⟨⟨hflows.live, hflows.order_posted hscript, hflows.coalesced, ?_, hflows.two,
      fun hrunning => absurd hworker hrunning, hflows.full, hflows.active⟩, h.pumped⟩
    have hposted := hflows.outstanding_posted event
    rw [Bool.eq_false_of_not_eq_true hbatch] at hposted
    exact hposted.symm
  | lock hworker hscript hbatch =>
    rename_i event script
    refine h.moved ?_ fun hfull => ?_
    · cases event with
      | batch operations => exact ⟨operations, script, hscript⟩
      | _ => cases hbatch
    · rcases hfull with hfull | hfull <;> cases hfull
  | stopped hworker hstop => exact absurd (hstop.symm.trans hflows.live.1) (by decide)
  | admitted hworker hscript hroom =>
    rename_i event script
    obtain ⟨operations, rest, hbatch⟩ := hwaiting (hworker.trans_ne (by decide))
    refine ⟨⟨hflows.live, hflows.order_posted hscript, hflows.coalesced, ?_, hroom,
      fun hrunning => absurd rfl hrunning, fun hfull => ?_, hflows.active⟩, h.pumped⟩
    · have hposted := hflows.outstanding_posted event
      have hevent : event = .batch operations := (List.cons.inj (hscript.symm.trans hbatch)).1
      rw [hevent] at hposted ⊢
      exact hposted.symm
    · rcases hfull with hfull | hfull <;> cases hfull
  | full hworker _ hfull =>
    have htwo := hflows.two
    exact h.moved (hwaiting (hworker.trans_ne (by decide))) fun _ => by omega
  | block hworker =>
    exact h.moved (hwaiting (hworker.trans_ne (by decide))) fun _ => hflows.full (.inl hworker)
  | relock hworker =>
    refine h.moved (hwaiting (hworker.trans_ne (by decide))) fun hfull => ?_
    rcases hfull with hfull | hfull <;> cases hfull

inductive Stepped (session : PreviewSession O) : PreviewAction → PreviewSession O → Prop
  | work {session' : PreviewSession O} (hworked : Worked session session') :
      Stepped session .work session'
  | abandon (hstop : session.flow.stopRequested = true) (hworker : session.worker = .running) :
      Stepped session .abandon { session with script := [] }
  | posted {event : PreviewEvent O} {posted : List (PreviewEvent O)}
      (hposted : session.posted = event :: posted) (hsteps : session.closeSteps = []) :
      Stepped session .posted ({ session with posted }.enqueuePreview event)
  | written {event : PreviewEvent O} (hactive : session.active = some event)
      (hsteps : session.closeSteps = [])
      (hmutex : event.isBatch = true → session.mutexFree = true) :
      Stepped session (.writeDone true) (session.onWrite event)
  | failing {action : PreviewAction} {active : Option (PreviewEvent O)}
      (hstays : action.advances = false) (hsteps : session.closeSteps = []) :
      Stepped session action { session with active, closeSteps := [.fail] }
  | reading (hsteps : session.closeSteps = []) :
      Stepped session (.readDone true) { session with closing := true }
  | stopping (hsteps : session.closeSteps = []) :
      Stepped session .stop { session with closeSteps := [.requestStop, .notifyAll, .fail] }
  | requestStop {closeSteps : List CloseStep} (hsteps : session.closeSteps = .requestStop :: closeSteps) :
      Stepped session .close
        { session with closeSteps, flow := { session.flow with stopRequested := true } }
  | notifyAll {closeSteps : List CloseStep} (hsteps : session.closeSteps = .notifyAll :: closeSteps) :
      Stepped session .close { session with closeSteps }.notifyAll
  | fail {closeSteps : List CloseStep} (hsteps : session.closeSteps = .fail :: closeSteps) :
      Stepped session .close { session with
        closed := true
        closeSteps := .requestStop :: .notifyAll :: .clear :: closeSteps }
  | failed {closeSteps : List CloseStep} (hsteps : session.closeSteps = .fail :: closeSteps)
      (hclosed : session.closed = true) : Stepped session .close { session with closeSteps }
  | clear {closeSteps : List CloseStep} (hsteps : session.closeSteps = .clear :: closeSteps) :
      Stepped session .close { session with closeSteps, queue := [] }

theorem closed_stepped (h : session.close = some session') : Stepped session .close session' := by
  unfold PreviewSession.close at h
  split at h
  · cases h
  · next hsteps =>
    cases h
    exact .requestStop hsteps
  · next hsteps =>
    cases h
    exact .notifyAll hsteps
  · next hsteps =>
    split_ifs at h with hclosed
    · cases h
      exact .failed hsteps hclosed
    · cases h
      exact .fail hsteps
  · next hsteps =>
    cases h
    exact .clear hsteps

variable {action : PreviewAction}

theorem stepped (h : session.step action = some session') : Stepped session action session' := by
  cases action with
  | work => exact .work (worked h)
  | abandon =>
    obtain ⟨⟨hstop, hworker⟩, ⟨⟩⟩ := Option.ite_none_right_eq_some.mp h
    exact .abandon hstop hworker
  | posted =>
    dsimp only [PreviewSession.step] at h
    split at h
    · cases h
    · next hposted =>
      obtain ⟨hsteps, ⟨⟩⟩ := Option.ite_none_right_eq_some.mp h
      exact .posted hposted hsteps
  | writeDone ok =>
    dsimp only [PreviewSession.step] at h
    split at h
    · cases h
    · next event hactive =>
      obtain ⟨hsteps, hrest⟩ := Option.ite_none_left_eq_some.mp h
      split_ifs at hrest with hfailed hmutex
      · cases hrest
        exact .failing (by rw [hfailed]; rfl) (not_not.mp hsteps)
      · cases hrest
        obtain rfl : ok = true := by simpa using hfailed
        exact .written hactive (not_not.mp hsteps) fun hbatch => by simpa [hbatch] using hmutex
  | readDone ok =>
    obtain ⟨hsteps, hrest⟩ := Option.ite_none_left_eq_some.mp h
    split_ifs at hrest with hfailed
    · cases hrest
      exact .failing rfl (not_not.mp hsteps)
    · cases hrest
      obtain rfl : ok = true := by simpa using hfailed
      exact .reading (not_not.mp hsteps)
  | stop =>
    obtain ⟨hsteps, ⟨⟩⟩ := Option.ite_none_left_eq_some.mp h
    exact .stopping (not_not.mp hsteps)
  | fail =>
    obtain ⟨hsteps, ⟨⟩⟩ := Option.ite_none_left_eq_some.mp h
    exact .failing rfl (not_not.mp hsteps)
  | close => exact closed_stepped h

theorem pumpPreview_fields (session : PreviewSession O) :
    session.pumpPreview.flow = session.flow ∧ session.pumpPreview.closed = session.closed ∧
      session.pumpPreview.closeSteps = session.closeSteps ∧
      session.pumpPreview.worker = session.worker := by
  unfold pumpPreview
  split
  · exact ⟨rfl, rfl, rfl, rfl⟩
  · split_ifs <;> exact ⟨rfl, rfl, rfl, rfl⟩

theorem enqueuePreview_fields (session : PreviewSession O) (event : PreviewEvent O) :
    (session.enqueuePreview event).flow = session.flow ∧
      (session.enqueuePreview event).closed = session.closed ∧
      (session.enqueuePreview event).closeSteps = session.closeSteps ∧
      (session.enqueuePreview event).worker = session.worker := by
  unfold enqueuePreview
  dsimp only
  split_ifs
  · exact ⟨rfl, rfl, rfl, rfl⟩
  · exact pumpPreview_fields _
  · exact pumpPreview_fields _

theorem onWrite_fields (session : PreviewSession O) (event : PreviewEvent O) :
    (session.onWrite event).flow.stopRequested = session.flow.stopRequested ∧
      (session.onWrite event).closed = session.closed ∧
      (session.onWrite event).closeSteps = session.closeSteps ∧
      ((session.onWrite event).worker = session.worker ∨ (session.onWrite event).worker = .notified) := by
  have hended : (session.ended event).flow.stopRequested = session.flow.stopRequested ∧
      (session.ended event).closed = session.closed ∧
      (session.ended event).closeSteps = session.closeSteps ∧
      ((session.ended event).worker = session.worker ∨ (session.ended event).worker = .notified) := by
    unfold ended notifyAll
    split_ifs
    · exact ⟨rfl, rfl, rfl, .inr rfl⟩
    · exact ⟨rfl, rfl, rfl, .inl rfl⟩
    · exact ⟨rfl, rfl, rfl, .inl rfl⟩
  rw [onWrite_eq]
  split_ifs
  · exact hended
  · obtain ⟨hflow, hclosed, hsteps, hworker⟩ := pumpPreview_fields (session.ended event)
    rw [hflow, hclosed, hsteps, hworker]
    exact hended

theorem Dying.step (h : session.Dying) (hstepped : Stepped session action session') : session'.Dying := by
  have hbegun : session.closeSteps = [] → session.flow.stopRequested = true ∨ session.closed = true := by
    intro hsteps
    rcases h with hstop | hclosed | hfail | hrequest
    · exact .inl hstop
    · exact .inr hclosed
    · rw [hsteps] at hfail
      cases hfail
    · rw [hsteps] at hrequest
      cases hrequest
  have hkept : ∀ {step : CloseStep} {closeSteps : List CloseStep},
      session.closeSteps = step :: closeSteps → step ≠ .fail → step ≠ .requestStop →
      session.flow.stopRequested = true ∨ session.closed = true := by
    intro step closeSteps hsteps hnotFail hnotRequest
    rcases h with hstop | hclosed | hfail | hrequest
    · exact .inl hstop
    · exact .inr hclosed
    · rw [hsteps] at hfail
      exact absurd (Option.some.inj hfail) hnotFail
    · rw [hsteps] at hrequest
      exact absurd (Option.some.inj hrequest) hnotRequest
  cases hstepped with
  | work hworked => cases hworked <;> exact h
  | abandon => exact h
  | posted _ hsteps =>
    obtain ⟨hflow, hclosed, -, -⟩ := enqueuePreview_fields { session with posted := _ } _
    unfold Dying
    rw [hflow, hclosed]
    exact (hbegun hsteps).imp_right .inl
  | written _ hsteps =>
    obtain ⟨hflow, hclosed, -, -⟩ := onWrite_fields session _
    unfold Dying
    rw [hflow, hclosed]
    exact (hbegun hsteps).imp_right .inl
  | failing => exact .inr (.inr (.inl rfl))
  | reading hsteps => exact h
  | stopping => exact .inr (.inr (.inr rfl))
  | requestStop => exact .inl rfl
  | notifyAll hsteps => exact (hkept hsteps (by decide) (by decide)).imp_right .inl
  | fail => exact .inr (.inl rfl)
  | failed _ hclosed => exact .inr (.inl hclosed)
  | clear hsteps => exact (hkept hsteps (by decide) (by decide)).imp_right .inl

theorem Body.step (h : session.Body events) (hevents : Terminated events)
    (hstepped : Stepped session action session') : session'.Dying ∨ session'.Body events := by
  have hflows := h.flows
  obtain ⟨hstop, hclosed, hidle⟩ := hflows.live
  have hcalm : ∀ {step : CloseStep} {closeSteps : List CloseStep},
      session.closeSteps ≠ step :: closeSteps := by
    intro step closeSteps hsteps
    cases hsteps.symm.trans hidle
  cases hstepped with
  | work hworked => exact .inr (h.work hworked)
  | abandon hrequested => exact absurd (hrequested.symm.trans hstop) (by decide)
  | posted hposted => exact .inr (hflows.enqueue hposted)
  | written hactive _ hmutex => exact .inr (h.onWrite hevents hactive hmutex)
  | failing => exact .inl (.inr (.inr (.inl rfl)))
  | reading =>
    exact .inr ⟨{ hflows with }, nofun⟩
  | stopping => exact .inl (.inr (.inr (.inr rfl)))
  | requestStop hsteps => exact absurd hsteps hcalm
  | notifyAll hsteps => exact absurd hsteps hcalm
  | fail hsteps => exact absurd hsteps hcalm
  | failed hsteps => exact absurd hsteps hcalm
  | clear hsteps => exact absurd hsteps hcalm

theorem Terminated.start : ({ script := events } : PreviewSession O).Body events :=
  ⟨⟨⟨rfl, rfl, rfl⟩, rfl, .nil, rfl, Nat.zero_le 2, nofun, nofun, nofun⟩, fun _ _ => rfl⟩

theorem body_of_run (hbatch : 0 < limits.batchSize)
    {program : PreviewProgram O} {actions : List PreviewAction}
    (hrun : Run PreviewSession.step (start limits program) actions session) (hlive : session.Live) :
    session.Body (previewEvents limits program) := by
  have hevents := previewEvents_terminated hbatch program
  have hinv : session.Dying ∨ session.Body (previewEvents limits program) := by
    apply hrun.invariant (.inr Terminated.start)
    intro before action after hstep hbefore
    rcases hbefore with hdying | hbody
    · exact .inl (hdying.step (stepped hstep))
    · exact hbody.step hevents (stepped hstep)
  exact hinv.resolve_left hlive.not_dying

end PreviewSession

end LinuxcncCtrl
