import LinuxcncCtrl.Sanity.RemoteCredit

/-! The read credit of a RunComponent stream. While the stream is going there is exactly one: a read that is
outstanding, a request that is queued or running, a response that is queued or being written, or the
resume flag with a write in flight. That the credit is there does not make the stream read: deltas that
are offered during every write keep it in the resume flag for ever. This is the defect whose rate
`RemoteStarvation` counts, and no behaviour the stream is meant to have. -/

namespace LinuxcncCtrl

open Lib

variable {F : Type}

namespace ComponentStream

variable {stream stream' : ComponentStream F}

/-- There is at most one credit, and one while the stream is going. -/
structure Balanced (stream : ComponentStream F) : Prop where
  reading : stream.reactor.reading = false
  sane : stream.reactor.Sane
  le : stream.reads + stream.consuming + stream.reactor.credit ≤ 1
  eq : stream.reactor.Going → stream.reads + stream.consuming + stream.reactor.credit = 1

theorem consuming_eq (stream : ComponentStream F) :
    stream.consuming = Reactor.requests stream.executor + (stream.running.any HalTask.isConsume).toNat := rfl

theorem credit_reading (reactor : Reactor F) :
    ({ reactor with reading := false } : Reactor F).credit + reactor.reading.toNat = reactor.credit := by
  simp only [Reactor.credit, Bool.toNat_false]
  omega

variable {function : Reactor F → BoundedExecutor (HalTask F) → Reactor F × BoundedExecutor (HalTask F)}
  {task : HalTask F} {action : ComponentStreamAction F}

/-- A callback that is given `change` credits, from a state that has that many too few. -/
theorem Balanced.invoke {change : ℕ}
    (hreading : stream.reactor.reading = false) (hsane : stream.reactor.Sane)
    (hle : stream.reads + stream.consuming + stream.reactor.credit + change ≤ 1)
    (heq : stream.reactor.Going → stream.reads + stream.consuming + stream.reactor.credit + change = 1)
    (hsettles : stream.reactor.gate = .opened →
      Reactor.Settles change stream.reactor stream.executor (function stream.reactor stream.executor)) :
    (stream.invoke function).Balanced := by
  unfold ComponentStream.invoke
  split_ifs with hopen
  · have hs := hsettles hopen
    have hcredit := credit_reading (function stream.reactor stream.executor).1
    have hrecord : (stream.record (function stream.reactor stream.executor)).consuming =
        Reactor.requests (function stream.reactor stream.executor).2 +
          (stream.running.any HalTask.isConsume).toNat := rfl
    rw [consuming_eq] at hle heq
    refine ⟨rfl, { hs.sane with }, ?_, fun hgoing => ?_⟩
    · have hsum := hs.le
      rw [hrecord]
      dsimp only [record]
      omega
    · have hsum := hs.eq hgoing
      have hone := heq (hs.going hgoing)
      rw [hrecord]
      dsimp only [record]
      omega
  · -- a stream whose gate is closed is not going
    refine ⟨hreading, hsane, by omega, fun hgoing => absurd (hsane.opened hgoing.1) hopen⟩

theorem requests_take {executor executor' : BoundedExecutor (HalTask F)} {index : ℕ}
    (h : executor.take index = some (task, executor')) :
    Reactor.requests executor' + task.isConsume.toNat = Reactor.requests executor ∧
      executor'.queue.length + 1 = executor.queue.length := by
  obtain ⟨item, hitem, rfl, rfl⟩ := BoundedExecutor.take_some h
  have hperm := BoundedExecutor.eraseIdx_perm hitem
  refine ⟨?_, hperm.length_eq⟩
  unfold Reactor.requests
  rw [← hperm.countP_eq, List.countP_cons]
  cases item.task.isConsume <;> rfl

theorem Balanced.invoke_kept (h : stream.Balanced) (hsettles : stream.reactor.gate = .opened →
      Reactor.Settles 0 stream.reactor stream.executor (function stream.reactor stream.executor)) :
    (stream.invoke function).Balanced :=
  Balanced.invoke h.reading h.sane h.le h.eq hsettles

theorem completed_eq (stream : ComponentStream F) :
    ∃ waitingSince late, stream.completed = { stream with waitingSince, late } := by
  unfold completed
  split_ifs
  · exact ⟨_, _, rfl⟩
  · exact ⟨_, _, rfl⟩

theorem Balanced.of_consuming (h : stream.Balanced) {executor : BoundedExecutor (HalTask F)}
    {running : Option (HalTask F)}
    (hconsuming : ({ stream with executor, running } : ComponentStream F).consuming = stream.consuming) :
    ({ stream with executor, running } : ComponentStream F).Balanced :=
  ⟨h.reading, h.sane, hconsuming ▸ h.le, hconsuming ▸ h.eq⟩

theorem Balanced.step (h : stream.Balanced)
    (hstep : stream.step action = some stream') : stream'.Balanced := by
  cases action with
  | readDone request =>
    obtain ⟨hreads, hsome⟩ := Option.ite_none_left_eq_some.mp hstep
    obtain rfl := Option.some.inj hsome
    have hcredit : stream.reads - 1 + stream.consuming + stream.reactor.credit + 1 =
        stream.reads + stream.consuming + stream.reactor.credit := by omega
    refine Balanced.invoke h.reading h.sane ?_ ?_ fun _ =>
      Reactor.settles_readDone h.sane stream.executor request
    · exact hcredit.trans_le h.le
    · exact fun hgoing => hcredit.trans (h.eq hgoing)
  | submitOther =>
    obtain ⟨executor, hsubmit, rfl⟩ := Option.map_eq_some_iff.mp hstep
    have hrequests : Reactor.requests executor = Reactor.requests stream.executor := by
      obtain ⟨-, -, rfl⟩ := BoundedExecutor.submitImpl_some hsubmit
      simp [Reactor.requests, HalTask.isConsume]
    refine h.of_consuming ?_
    rw [consuming_eq, consuming_eq, hrequests]
  | take index =>
    obtain ⟨hrunning, hsome⟩ := Option.ite_none_left_eq_some.mp hstep
    obtain ⟨⟨task, executor⟩, htake, rfl⟩ := Option.map_eq_some_iff.mp hsome
    refine h.of_consuming ?_
    rw [consuming_eq, consuming_eq, Option.not_isSome_iff_eq_none.mp hrunning]
    exact (requests_take htake).1
  | taskDone result =>
    unfold ComponentStream.step at hstep
    dsimp only at hstep
    split at hstep
    next => cases hstep
    next task hrunning =>
      split_ifs at hstep with hdelta hconsume
      · cases hstep
        have hconsuming : ({ stream with running := none } : ComponentStream F).consuming + 1 =
            stream.consuming := by
          rw [consuming_eq, consuming_eq, hrunning, Option.any_some, hconsume]
          rfl
        have hcredit : stream.reads + ({ stream with running := none } : ComponentStream F).consuming +
            stream.reactor.credit + 1 = stream.reads + stream.consuming + stream.reactor.credit := by omega
        refine Balanced.invoke h.reading h.sane ?_ ?_ fun _ =>
          Reactor.settles_deliver h.sane stream.executor h.reading result
        · exact hcredit.trans_le h.le
        · exact fun hgoing => hcredit.trans (h.eq hgoing)
      · cases hstep
        refine h.of_consuming ?_
        rw [consuming_eq, consuming_eq, hrunning, Option.any_some, Bool.eq_false_of_not_eq_true hconsume]
        rfl
  | offerDelta generation values =>
    cases hstep
    exact Balanced.invoke h.reading h.sane h.le h.eq fun _ => Reactor.settles_offerDelta h.sane _ _
  | writeDone ok =>
    obtain ⟨hflight, ⟨⟩⟩ := Option.ite_none_left_eq_some.mp hstep
    have hle := h.le
    obtain ⟨waitingSince, late, hcompleted⟩ := completed_eq stream
    have hnoted : ({ stream with waitingSince, late } : ComponentStream F).Balanced :=
      { h with }
    rw [hcompleted]
    refine hnoted.invoke_kept fun hopen => ?_
    exact Reactor.settles_writeDone h.sane _ hopen (Bool.eq_true_of_not_eq_false hflight) (by omega) ok
  | terminate status =>
    cases hstep
    exact h.invoke_kept fun _ => Reactor.settles_terminate h.sane.gated le_rfl stream.executor status
  | tick expired =>
    cases hstep
    exact h.invoke_kept fun _ => Reactor.settles_tick h.sane _ _
  | heartbeatTimeout generation =>
    cases hstep
    exact h.invoke_kept fun _ => Reactor.settles_heartbeatTimeout h.sane _ _

theorem construct_cases (registered admitted : Bool) :
    (∃ status, (Reactor.construct registered admitted : Reactor F) =
      ({} : Reactor F).requestFinish status) ∨
        (Reactor.construct registered admitted : Reactor F) = { reading := true } := by
  unfold Reactor.construct
  split_ifs
  · exact .inl ⟨_, rfl⟩
  · exact .inl ⟨_, rfl⟩
  · exact .inr rfl

theorem Balanced.start (registered admitted : Bool) (capacity cleanupReserve : ℕ) :
    (start registered admitted capacity cleanupReserve : ComponentStream F).Balanced := by
  unfold ComponentStream.start
  rcases construct_cases registered admitted with ⟨status, heq⟩ | heq <;> rw [heq]
  · have hgated : ({} : Reactor F).gate = .opened → ({} : Reactor F).writeFinish.finishStarted = false :=
      fun _ => rfl
    obtain ⟨hsane, hended⟩ := Reactor.Sane.requestFinish hgated status
    have hcredit := Reactor.credit_requestFinish ({} : Reactor F) status
    refine ⟨rfl, { hsane with }, ?_, fun hgoing => absurd hgoing hended⟩
    rw [← credit_reading] at hcredit
    refine le_trans ?_ (Nat.zero_le 1)
    dsimp only [consuming]
    simpa [Reactor.credit, Nat.add_comm] using hcredit
  · exact ⟨rfl, ⟨fun _ => rfl, fun _ => rfl, fun _ _ => ⟨rfl, rfl⟩⟩, le_rfl, fun _ => rfl⟩

/-- What is outstanding: a request becomes a response, and a response is written. -/
def outstanding (stream : ComponentStream F) : ℕ :=
  3 * stream.executor.queue.length + 2 * stream.running.isSome.toNat + stream.reactor.outbox.length +
    stream.reactor.writeFinish.writeInFlight.toNat

/-- A going stream that has its credit. -/
def Ready (stream : ComponentStream F) : Prop := stream.Balanced ∧ stream.reactor.Going

theorem taskDone_enabled (h : stream.running = some task) :
    ∃ stream', stream.step (.taskDone {}) = some stream' := by
  unfold step
  rw [h]
  dsimp only
  rw [if_neg (by simp)]
  split_ifs <;> exact ⟨_, rfl⟩

/-- A going stream that writes nothing, with nothing in the executor, has a read outstanding. -/
theorem Ready.writing (h : stream.Ready) (hreads : ¬ 0 < stream.reads) (hqueue : stream.executor.queue = [])
    (hrunning : stream.running = none) : stream.reactor.writeFinish.writeInFlight ≠ false := by
  obtain ⟨hbalanced, hgoing⟩ := h
  intro hidle
  obtain ⟨houtbox, hresume⟩ := hbalanced.sane.idle hgoing hidle
  have hone := hbalanced.eq hgoing
  have hconsuming : stream.consuming = 0 := by
    unfold consuming
    rw [hqueue, hrunning]
    rfl
  have hcredit : stream.reactor.credit = 0 := by
    unfold Reactor.credit
    rw [hbalanced.reading, houtbox, hidle, hresume]
    rfl
  omega

theorem Ready.enabled (h : stream.Ready) (hreads : ¬ 0 < stream.reads) :
    ∃ action stream', action.Completes ∧ stream.step action = some stream' := by
  cases hrunning : stream.running with
  | some task =>
    obtain ⟨stream', hstep⟩ := taskDone_enabled hrunning
    exact ⟨.taskDone {}, stream', ⟨rfl, rfl⟩, hstep⟩
  | none =>
    cases hqueue : stream.executor.queue with
    | cons item rest =>
      have htake : (stream.executor.take 0).isSome = true := by
        unfold BoundedExecutor.take
        rw [hqueue]
        rfl
      obtain ⟨taken, htaken⟩ := Option.isSome_iff_exists.mp htake
      refine ⟨.take 0, { stream with executor := taken.2, running := some taken.1 }, trivial, ?_⟩
      unfold step
      dsimp only
      rw [hrunning, if_neg (by simp), htaken]
      rfl
    | nil => exact ⟨.writeDone true, _, rfl, if_neg (h.writing hreads hqueue hrunning)⟩

variable {reactor : Reactor F}

theorem deliver_going (h : reactor.Going) (executor : BoundedExecutor (HalTask F))
    {result : RemoteComponentResult F} (hstatus : result.status.code = .ok) (hclose : result.close = false) :
    (reactor.deliver executor result).1.Going ∧ (reactor.deliver executor result).2 = executor ∧
      (reactor.deliver executor result).1.outbox.length +
          (reactor.deliver executor result).1.writeFinish.writeInFlight.toNat ≤
        reactor.outbox.length + reactor.writeFinish.writeInFlight.toNat + 1 := by
  obtain ⟨proxyId, generation, hhandle⟩ := Reactor.setHandle_eq reactor result
  unfold Reactor.deliver
  rw [if_neg (not_not.mpr hstatus), hhandle]
  split
  next response _ =>
    have hset : ({ reactor with proxyId, generation } : Reactor F).Going := h
    obtain ⟨hgoing, -, hlength⟩ := Reactor.offerResponse_going hset response
    rw [if_neg (by simp [hclose])]
    exact ⟨hgoing, rfl, hlength.le⟩
  next =>
    rw [if_neg (by simp [hclose]), if_neg (by simp [h.1])]
    exact ⟨h, rfl, Nat.le_succ _⟩

theorem writeDone_going (h : reactor.Going) (hflight : reactor.writeFinish.writeInFlight = true) :
    (reactor.writeDone true).Going ∧
      (reactor.writeDone true).outbox.length + (reactor.writeDone true).writeFinish.writeInFlight.toNat <
        reactor.outbox.length + reactor.writeFinish.writeInFlight.toNat := by
  cases houtbox : reactor.outbox with
  | cons entry rest =>
    rw [h.writeDone_next houtbox]
    refine ⟨h, ?_⟩
    simp [hflight]
  | nil =>
    rw [h.writeDone_last houtbox]
    refine ⟨h, ?_⟩
    simp [hflight, houtbox]

theorem Ready.completes (h : stream.Ready) (haction : action.Completes)
    (hstep : stream.step action = some stream') : stream'.Ready ∧ stream'.outstanding < stream.outstanding := by
  have hbalanced := h.1.step hstep
  have hopen := h.1.sane.opened h.2.1
  cases action with
  | take index =>
    obtain ⟨hrunning, hsome⟩ := Option.ite_none_left_eq_some.mp hstep
    obtain ⟨⟨task, executor⟩, htake, rfl⟩ := Option.map_eq_some_iff.mp hsome
    refine ⟨⟨hbalanced, h.2⟩, ?_⟩
    have hlength := (requests_take htake).2
    unfold outstanding
    rw [Option.not_isSome_iff_eq_none.mp hrunning]
    simp only [Option.isSome_some, Option.isSome_none, Bool.toNat_true, Bool.toNat_false]
    omega
  | taskDone result =>
    obtain ⟨hstatus, hclose⟩ := haction
    unfold ComponentStream.step at hstep
    dsimp only at hstep
    split at hstep
    next => cases hstep
    next task hrunning =>
      split_ifs at hstep with hdelta hconsume
      · cases hstep
        unfold invoke at hbalanced ⊢
        rw [if_pos hopen] at hbalanced ⊢
        obtain ⟨hgoing, hexecutor, hlength⟩ := deliver_going h.2 stream.executor hstatus hclose
        refine ⟨⟨hbalanced, hgoing⟩, ?_⟩
        unfold outstanding
        rw [hrunning]
        dsimp only [record]
        rw [hexecutor]
        simp only [Option.isSome_some, Option.isSome_none, Bool.toNat_true, Bool.toNat_false]
        omega
      · cases hstep
        refine ⟨⟨hbalanced, h.2⟩, ?_⟩
        unfold outstanding
        rw [hrunning]
        simp only [Option.isSome_some, Option.isSome_none, Bool.toNat_true, Bool.toNat_false]
        omega
  | writeDone ok =>
    obtain rfl : ok = true := haction
    obtain ⟨hflight, ⟨⟩⟩ := Option.ite_none_left_eq_some.mp hstep
    obtain ⟨hgoing, hlength⟩ := writeDone_going h.2 (Bool.eq_true_of_not_eq_false hflight)
    obtain ⟨waitingSince, late, hcompleted⟩ := completed_eq stream
    rw [hcompleted] at hbalanced ⊢
    unfold invoke at hbalanced ⊢
    rw [if_pos hopen] at hbalanced ⊢
    refine ⟨⟨hbalanced, hgoing⟩, ?_⟩
    unfold outstanding
    dsimp only [record]
    omega
  | readDone request => exact absurd haction id
  | submitOther => exact absurd haction id
  | offerDelta generation values => exact absurd haction id
  | terminate status => exact absurd haction id
  | tick expired => exact absurd haction id
  | heartbeatTimeout generation => exact absurd haction id

theorem balanced_of_run {registered admitted : Bool} {capacity cleanupReserve : ℕ}
    {actions : List (ComponentStreamAction F)}
    (hrun : Run step (start registered admitted capacity cleanupReserve) actions stream) : stream.Balanced := by
  apply hrun.invariant
  · exact Balanced.start registered admitted capacity cleanupReserve
  · intro stream action stream' hstep h
    exact h.step hstep

/-- In every state of a RunComponent stream at most one read is outstanding. While no termination was
requested and no close accepted, the reads outstanding, the requests queued or running, the responses
queued or being written and the resume flag with a write in flight are one altogether; and completions
alone lead to an outstanding read, whichever they are. -/
theorem readCredit_conserved {registered admitted : Bool} {capacity cleanupReserve : ℕ}
    {actions : List (ComponentStreamAction F)}
    (hrun : Run step (start registered admitted capacity cleanupReserve) actions stream) :
    stream.reads ≤ 1 ∧
      (stream.Going → stream.reads + stream.consuming + stream.responses + stream.resuming = 1 ∧
          Inevitably step ComponentStreamAction.Completes (fun stream => 0 < stream.reads) stream) := by
  have hbalanced := balanced_of_run hrun
  have hle := hbalanced.le
  refine ⟨by omega, fun hgoing => ⟨?_, ?_⟩⟩
  · have hone := hbalanced.eq hgoing
    have hresuming : stream.resuming = stream.reactor.resumeReadWhenIdle.toNat := by
      unfold resuming
      cases hflight : stream.reactor.writeFinish.writeInFlight with
      | true => rw [Bool.true_and]
      | false => rw [(hbalanced.sane.idle hgoing hflight).2, Bool.false_and]
    have hcredit : stream.reactor.credit = stream.responses + stream.reactor.resumeReadWhenIdle.toNat := by
      unfold Reactor.credit responses
      rw [hbalanced.reading, Bool.toNat_false]
      omega
    omega
  · have hready : stream.Ready := ⟨hbalanced, hgoing⟩
    refine Inevitably.of_measure outstanding ?_ ?_ hready
    · exact fun stream h hreads => h.enabled hreads
    · exact fun stream action stream' h _ haction hstep => h.completes haction hstep

/-! A stream that has read one request, whose response is written. -/

def ackedActions : List (ComponentStreamAction ℤ) :=
  [.readDone (some (.heartbeat 1)), .take 0, .taskDone { response := some (.heartbeatAck 1) }]

def ackedStream : ComponentStream ℤ := (exec step (start true true 8 1) ackedActions).getD (start true true 8 1)

theorem readCredit_conserved_acked : ackedStream.Going ∧ ackedStream.responses = 1 ∧
      Inevitably step ComponentStreamAction.Completes (fun stream => 0 < stream.reads) ackedStream := by
  have hrun : Run step (start true true 8 1) ackedActions ackedStream := .getD_exec (by decide +kernel)
  have hgoing : ackedStream.Going := ⟨by decide +kernel, by decide +kernel⟩
  exact ⟨hgoing, by decide +kernel, ((readCredit_conserved hrun).2 hgoing).2⟩

/-- A delta is being written and the read waits until nothing is queued. -/
structure Starving (stream : ComponentStream F) : Prop where
  going : stream.reactor.Going
  opened : stream.reactor.gate = .opened
  reading : stream.reactor.reading = false
  flight : stream.reactor.writeFinish.writeInFlight = true
  passive : stream.reactor.activeResponse = false
  resume : stream.reactor.resumeReadWhenIdle = true
  deltas : ∀ entry ∈ stream.reactor.outbox, entry.resumeRead = false
  reads : stream.reads = 0
  consuming : stream.consuming = 0

/-- During each write a delta is offered, and then the write completes. -/
def offerAndWrite (index : ℕ) : ComponentStreamAction F :=
  if index % 2 = 0 then .offerDelta 1 [] else .writeDone true

def starved (stream : ComponentStream F) : ℕ → ComponentStream F
  | 0 => stream
  | index + 1 => ((starved stream index).step (offerAndWrite index)).getD (starved stream index)

theorem pushDelta_delta (outbox : List (OutboxEntry F)) (message : HalComponentServerMessage F)
    (h : ∀ entry ∈ outbox, entry.resumeRead = false) :
    (∀ entry ∈ ComponentOutbox.pushDelta outbox message, entry.resumeRead = false) ∧
      ComponentOutbox.pushDelta outbox message ≠ [] := by
  have hnone : outbox.countP OutboxEntry.resumeRead = 0 :=
    List.countP_eq_zero.mpr fun entry hentry => by simp [h entry hentry]
  have hcount := (Reactor.countP_pushDelta outbox message).trans hnone
  rw [List.countP_eq_zero] at hcount
  refine ⟨fun entry hentry => Bool.eq_false_of_not_eq_true (hcount entry hentry), ?_⟩
  unfold ComponentOutbox.pushDelta
  split <;> simp

theorem Starving.offer (h : stream.Starving) :
    ∃ stream', stream.step (.offerDelta 1 []) = some stream' ∧ stream'.Starving ∧
      stream'.reactor.outbox ≠ [] := by
  obtain ⟨hdeltas, hqueued⟩ := pushDelta_delta stream.reactor.outbox
    (.delta 1 (stream.serverSequence + 1) []) h.deltas
  refine ⟨_, rfl, ?_⟩
  unfold invoke
  dsimp only
  rw [if_pos h.opened]
  unfold Reactor.offerDelta
  rw [if_neg (by simp [h.going.1])]
  rw [if_pos h.flight]
  refine ⟨{ h with reading := rfl, deltas := hdeltas, reads := ?_ }, hqueued⟩
  rw [h.reads, h.reading]
  rfl

theorem Starving.write (h : stream.Starving) (hqueued : stream.reactor.outbox ≠ []) :
    ∃ stream', stream.step (.writeDone true) = some stream' ∧ stream'.Starving := by
  obtain ⟨entry, rest, houtbox⟩ := List.exists_cons_of_ne_nil hqueued
  have hdeltas := h.deltas
  rw [houtbox] at hdeltas
  refine ⟨_, if_neg (by simp [h.flight]), ?_⟩
  have hcompleted : stream.completed = stream := if_neg (by simp [h.passive])
  rw [hcompleted]
  unfold invoke
  rw [if_pos h.opened]
  dsimp only
  rw [h.going.writeDone_next houtbox]
  refine ⟨h.going, h.opened, rfl, rfl, hdeltas entry List.mem_cons_self, ?_, ?_, ?_, h.consuming⟩
  · dsimp only [record]
    rw [h.resume, Bool.or_true]
  · exact fun other hother => hdeltas other (List.mem_cons_of_mem _ hother)
  · dsimp only [record]
    rw [h.reads, h.reading]
    rfl

theorem Starving.forever (h : stream.Starving) (index : ℕ) :
    (starved stream index).Starving ∧ (index % 2 = 1 → (starved stream index).reactor.outbox ≠ []) ∧
      (starved stream index).step (offerAndWrite index) = some (starved stream (index + 1)) := by
  -- from the state at an index, the step there
  have hstep : ∀ index, (starved stream index).Starving →
      (index % 2 = 1 → (starved stream index).reactor.outbox ≠ []) →
      (starved stream index).step (offerAndWrite index) = some (starved stream (index + 1)) ∧
        (starved stream (index + 1)).Starving ∧
        ((index + 1) % 2 = 1 → (starved stream (index + 1)).reactor.outbox ≠ []) := by
    intro index hstarving hqueued
    rcases Nat.mod_two_eq_zero_or_one index with heven | hodd
    · obtain ⟨next, hnext, hstarving', hqueued'⟩ := hstarving.offer
      have haction : (offerAndWrite index : ComponentStreamAction F) = .offerDelta 1 [] := if_pos heven
      have hstarved : starved stream (index + 1) = next := by
        rw [starved, haction, hnext, Option.getD_some]
      rw [haction, hstarved]
      exact ⟨hnext, hstarving', fun _ => hqueued'⟩
    · obtain ⟨next, hnext, hstarving'⟩ := hstarving.write (hqueued hodd)
      have haction : (offerAndWrite index : ComponentStreamAction F) = .writeDone true := if_neg (by omega)
      have hstarved : starved stream (index + 1) = next := by
        rw [starved, haction, hnext, Option.getD_some]
      rw [haction, hstarved]
      exact ⟨hnext, hstarving', fun hodd' => by omega⟩
  have hall : (starved stream index).Starving ∧
      (index % 2 = 1 → (starved stream index).reactor.outbox ≠ []) := by
    induction index with
    | zero => exact ⟨h, nofun⟩
    | succ index ih => exact (hstep index ih.1 ih.2).2
  exact ⟨hall.1, hall.2, (hstep index hall.1 hall.2).1⟩

/-- After the response, with a delta offered during its write. -/
def starvingActions : List (ComponentStreamAction ℤ) :=
  ackedActions ++ [.offerDelta 1 [], .writeDone true]

def starvingStream : ComponentStream ℤ :=
  (exec step (start true true 8 1) starvingActions).getD (start true true 8 1)

theorem starvingStream_starving : starvingStream.Starving :=
  ⟨⟨by decide +kernel, by decide +kernel⟩, by decide +kernel, by decide +kernel, by decide +kernel,
    by decide +kernel, by decide +kernel, by decide +kernel, by decide +kernel, by decide +kernel⟩

/-- A stream that is going and never reads again, although every write completes: before each completion
another delta is offered. -/
theorem stream_reads_no_more :
    ∃ future : ℕ → ComponentStream ℤ, Run step (start true true 8 1) starvingActions (future 0) ∧
      ∀ index, (future index).step (offerAndWrite index) = some (future (index + 1)) ∧
        (future index).Going ∧ (future index).reads = 0 ∧ (future index).consuming = 0 := by
  refine ⟨starved starvingStream, .getD_exec (by decide +kernel), fun index => ?_⟩
  obtain ⟨hstarving, -, hstep⟩ := starvingStream_starving.forever index
  exact ⟨hstep, hstarving.going, hstarving.reads, hstarving.consuming⟩

end ComponentStream

end LinuxcncCtrl
