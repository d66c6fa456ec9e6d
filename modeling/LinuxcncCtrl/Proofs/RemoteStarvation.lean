import LinuxcncCtrl.Proofs.RemoteCredit

/-! How long deltas can keep a RunComponent stream from reading. Between the write of a response and the next
read the outbox holds one delta at most, into which what is offered is merged; but each write of a delta
gives time for another one. The schedule that breaks the bound is a beginning of the one on which
`stream_reads_no_more` starves the stream for ever. -/

namespace LinuxcncCtrl

open Lib

variable {F : Type}

namespace ComponentStream

variable {stream : ComponentStream F}

/-- The entries of an outbox are responses and deltas, and no two deltas stand next to each other. -/
structure Queued (outbox : List (OutboxEntry F)) : Prop where
  kinds : ∀ entry ∈ outbox, entry.message.isDelta = !entry.resumeRead
  merged : outbox.IsChain fun first second => first.resumeRead = true ∨ second.resumeRead = true

theorem Queued.nil : Queued ([] : List (OutboxEntry F)) := ⟨by simp, List.isChain_nil⟩

variable {entry : OutboxEntry F} {message : HalComponentServerMessage F}
  {outbox rest : List (OutboxEntry F)}

theorem Queued.concat {front : List (OutboxEntry F)} (h : Queued front)
    (hkind : entry.message.isDelta = !entry.resumeRead)
    (hlast : ∀ last ∈ front.getLast?, last.resumeRead = true ∨ entry.resumeRead = true) :
    Queued (front ++ [entry]) := by
  refine ⟨fun other hother => ?_, ?_⟩
  · rcases List.mem_append.mp hother with hfront | hnew
    · exact h.kinds other hfront
    · rw [List.mem_singleton.mp hnew]
      exact hkind
  · rw [List.isChain_append]
    refine ⟨h.merged, List.isChain_singleton _, fun last hfront first hfirst => ?_⟩
    obtain rfl : entry = first := by simpa using hfirst
    exact hlast last hfront

theorem Queued.pushResponse (h : Queued outbox) (hmessage : message.isDelta = false) :
    Queued (ComponentOutbox.pushResponse outbox message) :=
  h.concat hmessage fun _ _ => .inr rfl

theorem Queued.pushDelta (h : Queued outbox) (generation sequence : ℕ) (values : List (EncodedValue F)) :
    Queued (ComponentOutbox.pushDelta outbox (.delta generation sequence values)) := by
  unfold ComponentOutbox.pushDelta
  split
  next _ _ _ _ generation' sequence' queued resumeRead _ hlast =>
    obtain ⟨front, rfl⟩ := List.getLast?_eq_some_iff.mp hlast
    rw [List.dropLast_concat]
    -- the last entry is a delta, and stays one
    have hdelta : true = !resumeRead :=
      h.kinds ⟨.delta generation' sequence' queued, resumeRead⟩ (List.mem_append_right _ (by simp))
    obtain ⟨hfront, -, hadjacent⟩ := List.isChain_append.mp h.merged
    have hqueued : Queued front := ⟨fun entry hentry => h.kinds entry (List.mem_append_left _ hentry), hfront⟩
    exact hqueued.concat hdelta fun last hlast =>
      hadjacent last hlast ⟨.delta generation' sequence' queued, resumeRead⟩ rfl
  next hother =>
    refine h.concat rfl fun last hlast => .inl ?_
    -- a delta at the end would have been merged into
    have hkind := h.kinds last (List.mem_of_getLast? hlast)
    obtain ⟨message, resumeRead⟩ := last
    cases message with
    | delta generation' sequence' queued =>
      exact absurd hlast (hother generation sequence values generation' sequence' queued resumeRead rfl)
    | _ => simpa [HalComponentServerMessage.isDelta] using hkind

/-- Without a response in it, an outbox holds one delta at most. -/
theorem Queued.tail_nil (h : Queued (entry :: rest))
    (hdeltas : (entry :: rest).countP OutboxEntry.resumeRead = 0) : rest = [] := by
  rw [List.countP_eq_zero] at hdeltas
  cases rest with
  | nil => rfl
  | cons second rest =>
    rcases (List.isChain_cons_cons.mp h.merged).1 with hresponse | hresponse
    · exact absurd hresponse (hdeltas entry (by simp))
    · exact absurd hresponse (hdeltas second (by simp))

/-- While a read waits for the outbox to be empty, either nothing offered after the response has been
written, or one such delta is being written and nothing is queued. -/
structure Prompt (stream : ComponentStream F) : Prop where
  late_le : stream.late ≤ 1
  queued : Queued stream.reactor.outbox
  flight : stream.reactor.writeFinish.terminationRequested = false →
    stream.reactor.resumeReadWhenIdle = true → stream.reactor.writeFinish.writeInFlight = true
  waiting : stream.reactor.writeFinish.terminationRequested = false →
    stream.waitingSince.isSome = stream.reactor.resumeReadWhenIdle
  written : stream.reactor.writeFinish.terminationRequested = false → stream.waitingSince.isSome = true →
    stream.late = 0 ∨ stream.late = 1 ∧ stream.reactor.outbox = [] ∧ stream.writingLate = true

theorem Prompt.not_waiting (h : stream.Prompt)
    (hgoing : stream.reactor.writeFinish.terminationRequested = false)
    (hresume : stream.reactor.resumeReadWhenIdle = false) : stream.waitingSince = none := by
  have hwaiting := h.waiting hgoing
  rwa [hresume, Option.isSome_eq_false_iff, Option.isNone_iff_eq_none] at hwaiting

variable {before after : Reactor F} {updated : Reactor F × BoundedExecutor (HalTask F)} {offered : ℕ}
  {reactor₀ : Reactor F}

theorem lateWrites_same (h : after.written = before.written) : stream.lateWrites before after = 0 := by
  unfold lateWrites
  rw [h, List.drop_length]
  cases stream.waitingSince <;> rfl

theorem lateWrites_none (h : stream.waitingSince = none) : stream.lateWrites before after = 0 := by
  unfold lateWrites
  rw [h]

theorem lateWrites_concat
    (hwaiting : stream.waitingSince = some offered) (h : after.written = before.written ++ [message]) :
    stream.lateWrites before after = (message.after offered).toNat := by
  unfold lateWrites
  rw [hwaiting, h, List.drop_left]
  cases hafter : message.after offered <;> simp [hafter]

theorem Prompt.of_resting (hlate : stream.late ≤ 1) (hqueued : Queued updated.1.outbox)
    (hwritten : stream.waitingSince = none ∨ updated.1.written = stream.reactor.written)
    (hresting : updated.1.writeFinish.terminationRequested = false → updated.1.resumeReadWhenIdle = false ∧
      (updated.1.reading = true ∨ stream.waitingSince = none)) :
    (stream.record updated).Prompt := by
  have hnone : updated.1.writeFinish.terminationRequested = false →
      (stream.record updated).waitingSince = none := by
    intro hgoing
    dsimp only [record]
    rcases (hresting hgoing).2 with hreading | hwaiting
    · rw [if_pos hreading]
    · rw [hwaiting, ite_self]
  refine ⟨?_, hqueued, fun hgoing hresume => ?_, fun hgoing => ?_, fun hgoing hsome => ?_⟩
  · dsimp only [record]
    rcases hwritten with hwaiting | hsame
    · rwa [lateWrites_none hwaiting]
    · rwa [lateWrites_same hsame]
  · exact absurd (hresume.symm.trans (hresting hgoing).1) nofun
  · rw [hnone hgoing]
    exact (hresting hgoing).1.symm
  · rw [hnone hgoing] at hsome
    cases hsome

/-- The one delta that was queued is written while the read waits. -/
theorem Prompt.of_delta (hlate : stream.late = 0)
    (hwaiting : stream.waitingSince = some offered) (hreading : updated.1.reading = false)
    (houtbox : updated.1.outbox = []) (hflight : updated.1.writeFinish.writeInFlight = true)
    (hresume : updated.1.resumeReadWhenIdle = true)
    (hwritten : updated.1.written = stream.reactor.written ++ [message]) : (stream.record updated).Prompt := by
  have hsome : (stream.record updated).waitingSince = some offered := by
    dsimp only [record]
    rw [hreading]
    exact hwaiting
  have hcount : (stream.record updated).late = (message.after offered).toNat := by
    dsimp only [record]
    rw [hlate, lateWrites_concat hwaiting hwritten, Nat.zero_add]
  have hwriting : (stream.record updated).writingLate = message.after offered := by
    unfold writingLate
    rw [hsome]
    dsimp only [record]
    rw [hwritten, List.getLast?_concat]
  refine ⟨?_, houtbox ▸ Queued.nil, fun _ _ => hflight, fun _ => ?_, fun _ _ => ?_⟩
  · rw [hcount]
    exact Bool.toNat_le _
  · rw [hsome]
    exact hresume.symm
  · rw [hcount, hwriting]
    cases message.after offered with
    | false => exact .inl rfl
    | true => exact .inr ⟨rfl, houtbox, rfl⟩

theorem Prompt.of_requestFinish (hlate : stream.late ≤ 1)
    (hwritten : reactor₀.written = stream.reactor.written) (executor : BoundedExecutor (HalTask F))
    (status : GrpcStatus) : (stream.record (reactor₀.requestFinish status, executor)).Prompt := by
  obtain ⟨gate, writeFinish, heq, -, hrequested, -, -⟩ := Reactor.requestFinish_eq reactor₀ status
  rw [heq]
  refine .of_resting hlate Queued.nil (.inr hwritten) fun hgoing => ?_
  cases hrequested.symm.trans hgoing

theorem Prompt.terminate (h : stream.Prompt) (executor : BoundedExecutor (HalTask F)) (status : GrpcStatus) :
    (stream.record (stream.reactor.terminate executor status)).Prompt := by
  unfold Reactor.terminate Reactor.detachTransport
  split_ifs
  · exact .of_requestFinish h.late_le rfl _ status
  · refine .of_requestFinish h.late_le ?_ _ status
    rfl

theorem completed_reactor (stream : ComponentStream F) : stream.completed.reactor = stream.reactor := by
  unfold completed
  split_ifs <;> rfl

theorem Prompt.completed_late (h : stream.Prompt) : stream.completed.late ≤ 1 := by
  unfold completed
  split_ifs
  · exact Nat.zero_le 1
  · exact h.late_le

section

variable (h : stream.Prompt) (hreading : stream.reactor.reading = false)
  (executor : BoundedExecutor (HalTask F))

include h hreading

theorem Prompt.of_unwritten (hqueued : Queued outbox)
    (hlate : stream.reactor.writeFinish.terminationRequested = false → stream.waitingSince.isSome = true →
      stream.late = 0 ∨ stream.late = 1 ∧ outbox = [] ∧ stream.writingLate = true) :
    (stream.record ({ stream.reactor with outbox }, executor)).Prompt := by
  have hwaiting : (stream.record ({ stream.reactor with outbox }, executor)).waitingSince =
      stream.waitingSince := if_neg (by simp [hreading])
  have hsame : (stream.record ({ stream.reactor with outbox }, executor)).late = stream.late :=
    congrArg (stream.late + ·) (lateWrites_same (by rfl))
  refine ⟨hsame ▸ h.late_le, hqueued, h.flight, hwaiting ▸ h.waiting, ?_⟩
  unfold writingLate at hlate ⊢
  rw [hwaiting, hsame]
  exact hlate

theorem Prompt.of_kept : (stream.record (stream.reactor, executor)).Prompt :=
  h.of_unwritten hreading executor h.queued h.written

theorem Prompt.readDone (request : Option (HalComponentClientMessage F)) :
    (stream.record (stream.reactor.readDone executor 0 request)).Prompt := by
  unfold Reactor.readDone
  split_ifs
  · exact h.of_kept hreading executor
  · cases request with
    | none => exact h.terminate executor _
    | some request =>
      dsimp only
      split
      next executor' _ =>
        exact { h.of_kept hreading executor' with }
      next =>
        refine .of_requestFinish h.late_le ?_ _ _
        rfl

theorem Prompt.tick (expired : Bool) : (stream.record (stream.reactor.tick expired, executor)).Prompt := by
  unfold Reactor.tick
  split_ifs
  · exact .of_requestFinish h.late_le rfl executor _
  · exact h.of_kept hreading executor

theorem Prompt.heartbeatTimeout (generation : ℕ) :
    (stream.record (stream.reactor.heartbeatTimeout generation, executor)).Prompt := by
  unfold Reactor.heartbeatTimeout
  split_ifs
  · refine .of_requestFinish h.late_le ?_ executor _
    rfl
  · exact h.of_kept hreading executor

theorem Prompt.offerResponse (hresume : stream.reactor.resumeReadWhenIdle = false)
    (hmessage : message.isDelta = false) :
    (stream.record (stream.reactor.offerResponse message, executor)).Prompt := by
  unfold Reactor.offerResponse
  dsimp only
  split_ifs with hrequested hflight
  · exact h.of_kept hreading executor
  all_goals
    have hgoing := Bool.eq_false_of_not_eq_true hrequested
    have hnone := h.not_waiting hgoing hresume
  · refine .of_resting h.late_le ?_ (.inl hnone) fun _ => ?_
    · exact h.queued.pushResponse hmessage
    · exact ⟨hresume, .inr hnone⟩
  · rw [Reactor.startWrite_eq (by exact Bool.eq_false_of_not_eq_true hflight) (by exact hgoing)]
    refine .of_resting h.late_le ?_ (.inl hnone) fun _ => ?_
    · exact h.queued
    · exact ⟨hresume, .inr hnone⟩

/-- A result comes while no read waits: the request it answers has the credit. -/
theorem Prompt.deliver (hresume : stream.reactor.resumeReadWhenIdle = false) {result : RemoteComponentResult F}
    (hresult : ¬ result.response.any HalComponentServerMessage.isDelta) :
    (stream.record (stream.reactor.deliver executor result)).Prompt := by
  obtain ⟨proxyId, generation, hhandle⟩ := Reactor.setHandle_eq stream.reactor result
  unfold Reactor.deliver
  split
  · exact h.terminate executor _
  · rw [hhandle]
    dsimp only
    split
    next response hresponse =>
      have hplain : response.isDelta = false := by
        rw [hresponse] at hresult
        exact Bool.eq_false_of_not_eq_true hresult
      have hset : ({ stream with
          reactor := { stream.reactor with proxyId, generation } } : ComponentStream F).Prompt := { h with }
      have hoffered := hset.offerResponse hreading executor hresume hplain
      split_ifs
      · exact { hoffered with }
      · exact { hoffered with }
    next =>
      split_ifs with hclose hrequested
      · refine .of_requestFinish h.late_le ?_ _ _
        rfl
      · exact { h.of_kept hreading executor with }
      · refine .of_resting h.late_le ?_ ?_ fun _ => ?_
        · exact h.queued
        · exact .inr rfl
        · exact ⟨hresume, .inl rfl⟩

theorem Prompt.offerDelta (hbetween : stream.writingLate = false) (generation sequence : ℕ)
    (values : List (EncodedValue F)) :
    (stream.record (stream.reactor.offerDelta (.delta generation sequence values), executor)).Prompt := by
  unfold Reactor.offerDelta
  dsimp only
  split_ifs with hrequested hflight
  · exact h.of_kept hreading executor
  · -- the message being written is not late, so nothing late was written
    have hpushed := h.of_unwritten hreading executor
      (h.queued.pushDelta generation sequence values)
      (fun hgoing hwaiting => .inl <| (h.written hgoing hwaiting).resolve_right fun ⟨_, _, hwriting⟩ =>
        absurd (hwriting.symm.trans hbetween) nofun)
    exact { hpushed with }
  · have hgoing := Bool.eq_false_of_not_eq_true hrequested
    have hresume : stream.reactor.resumeReadWhenIdle = false :=
      Bool.eq_false_of_not_eq_true fun hresume => hflight (h.flight hgoing hresume)
    have hnone := h.not_waiting hgoing hresume
    rw [Reactor.startWrite_eq (by exact Bool.eq_false_of_not_eq_true hflight) (by exact hgoing)]
    refine .of_resting h.late_le ?_ (.inl hnone) fun _ => ?_
    · exact h.queued
    · exact ⟨hresume, .inr hnone⟩

theorem Prompt.writeNext (hgoing : stream.reactor.writeFinish.terminationRequested = false)
    (hflight : stream.reactor.writeFinish.writeInFlight = true) (hcredit : stream.reactor.credit ≤ 1)
    (houtbox : stream.reactor.outbox = entry :: rest) :
    (stream.completed.record
      ({ stream.reactor with
        resumeReadWhenIdle := stream.reactor.activeResponse || stream.reactor.resumeReadWhenIdle
        outbox := rest
        activeResponse := entry.resumeRead
        writeFinish := { stream.reactor.writeFinish with writeInFlight := true }
        written := stream.reactor.written ++ [entry.message] }, executor)).Prompt := by
  have hqueued := houtbox ▸ h.queued
  unfold Reactor.credit at hcredit
  rw [hflight, Bool.true_and, houtbox] at hcredit
  unfold completed
  split_ifs with hactive
  · rw [hactive, Bool.toNat_true] at hcredit
    refine .of_delta rfl rfl ?_ ?_ rfl ?_ rfl
    · exact hreading
    · exact hqueued.tail_nil (by omega)
    · rw [hactive, Bool.true_or]
  · rw [Bool.eq_false_of_not_eq_true hactive, Bool.false_or]
    cases hwaiting : stream.waitingSince with
    | none =>
      have hnot := h.waiting hgoing
      rw [hwaiting] at hnot
      refine .of_resting h.late_le ?_ (.inl hwaiting) fun _ => ?_
      · exact ⟨fun other hother => hqueued.kinds other (List.mem_cons_of_mem _ hother), hqueued.merged.tail⟩
      · exact ⟨hnot.symm, .inr hwaiting⟩
    | some offered =>
      have hsome : stream.waitingSince.isSome = true := by rw [hwaiting]; rfl
      have hwaits := (h.waiting hgoing).symm.trans hsome
      rw [hwaits, Bool.toNat_true] at hcredit
      have hzero : stream.late = 0 := by
        rcases h.written hgoing hsome with hzero | ⟨-, hempty, -⟩
        · exact hzero
        · rw [houtbox] at hempty
          cases hempty
      refine .of_delta hzero hwaiting ?_ ?_ rfl ?_ rfl
      · exact hreading
      · exact hqueued.tail_nil (by omega)
      · exact hwaits

theorem Prompt.writeDone (hstarted : stream.reactor.writeFinish.finishStarted = false)
    (hflight : stream.reactor.writeFinish.writeInFlight = true) (hcredit : stream.reactor.credit ≤ 1)
    (ok : Bool) : (stream.completed.record (stream.reactor.writeDone ok, executor)).Prompt := by
  have hlate := h.completed_late
  have hunwritten : ∀ updated : Reactor F, updated.written = stream.reactor.written →
      updated.written = stream.completed.reactor.written := fun updated hsame => by
    rw [completed_reactor, hsame]
  have hcases := Reactor.writeDone_writeDone hstarted ok
  generalize stream.reactor.writeDone ok = updated at hcases ⊢
  cases hcases with
  | finished gate writeFinish _ hrequested _ _ =>
    refine .of_resting hlate h.queued (.inr (hunwritten _ rfl)) fun hgoing => ?_
    cases hrequested.symm.trans hgoing
  | next entry rest houtbox hgoing =>
    exact h.writeNext hreading executor hgoing hflight hcredit houtbox
  | closing status resume _ _ =>
    refine .of_requestFinish hlate ?_ executor status
    exact hunwritten _ rfl
  | read houtbox _ _ =>
    refine .of_resting hlate h.queued (.inr (hunwritten _ rfl)) fun _ => ?_
    exact ⟨rfl, .inl rfl⟩
  | idle houtbox hidle hgoing =>
    obtain ⟨hactive, hresume⟩ := Bool.or_eq_false_iff.mp hidle
    have hnone : stream.completed.waitingSince = none := by
      unfold completed
      rw [if_neg (by simp [hactive])]
      exact h.not_waiting hgoing hresume
    refine .of_resting hlate h.queued (.inr (hunwritten _ rfl)) fun _ => ?_
    exact ⟨hresume, .inr hnone⟩

end

theorem Prompt.invoke
    {function : Reactor F → BoundedExecutor (HalTask F) → Reactor F × BoundedExecutor (HalTask F)}
    (hsane : stream.reactor.Sane) (hlate : stream.late ≤ 1) (hqueued : Queued stream.reactor.outbox)
    (hopened : stream.reactor.gate = .opened → (stream.record (function stream.reactor stream.executor)).Prompt) :
    (stream.invoke function).Prompt := by
  unfold ComponentStream.invoke
  split_ifs with hopen
  · exact hopened hopen
  · -- a stream whose gate is closed is ending
    have hended : ¬ (stream.reactor.writeFinish.terminationRequested = false) :=
      fun hgoing => hopen (hsane.opened hgoing)
    exact ⟨hlate, hqueued, fun hgoing => absurd hgoing hended, fun hgoing => absurd hgoing hended,
      fun hgoing => absurd hgoing hended⟩

theorem Prompt.step {stream' : ComponentStream F} {action : ComponentStreamAction F} (h : stream.Prompt)
    (hbalanced : stream.Balanced) (hbetween : stream.OffersBetween action)
    (hstep : stream.step action = some stream') : stream'.Prompt := by
  have hreading := hbalanced.reading
  have hle := hbalanced.le
  cases action with
  | readDone request =>
    obtain ⟨-, hsome⟩ := Option.ite_none_left_eq_some.mp hstep
    obtain rfl := Option.some.inj hsome
    have hread : ({ stream with reads := stream.reads - 1 } : ComponentStream F).Prompt :=
      { h with }
    exact .invoke hbalanced.sane h.late_le h.queued fun _ => hread.readDone hreading _ request
  | submitOther =>
    obtain ⟨executor, -, rfl⟩ := Option.map_eq_some_iff.mp hstep
    exact { h with }
  | take index =>
    obtain ⟨-, hsome⟩ := Option.ite_none_left_eq_some.mp hstep
    obtain ⟨taken, -, rfl⟩ := Option.map_eq_some_iff.mp hsome
    exact { h with }
  | taskDone result =>
    have hended : ({ stream with running := none } : ComponentStream F).Prompt :=
      { h with }
    unfold ComponentStream.step at hstep
    dsimp only at hstep
    split at hstep
    next => cases hstep
    next task hrunning =>
      split_ifs at hstep with hdelta hconsume
      · cases hstep
        -- the credit is with the request that ran
        have hresume : stream.reactor.resumeReadWhenIdle = false := by
          rw [consuming_eq, hrunning, Option.any_some, hconsume, Bool.toNat_true] at hle
          unfold Reactor.credit at hle
          cases hresume : stream.reactor.resumeReadWhenIdle with
          | false => rfl
          | true =>
            rw [hresume, Bool.toNat_true] at hle
            omega
        exact .invoke hbalanced.sane h.late_le h.queued fun _ => hended.deliver hreading _ hresume hdelta
      · cases hstep
        exact hended
  | offerDelta generation values =>
    cases hstep
    have hoffered : ({ stream with serverSequence := stream.serverSequence + 1 } : ComponentStream F).Prompt :=
      { h with }
    exact .invoke hbalanced.sane h.late_le h.queued fun _ =>
      hoffered.offerDelta hreading _ hbetween generation _ values
  | writeDone ok =>
    obtain ⟨hflight, ⟨⟩⟩ := Option.ite_none_left_eq_some.mp hstep
    have hreactor := completed_reactor stream
    refine .invoke ?_ h.completed_late ?_ fun hopen => ?_
    · rw [hreactor]
      exact hbalanced.sane
    · rw [hreactor]
      exact h.queued
    · rw [hreactor] at hopen ⊢
      exact h.writeDone hreading _ (hbalanced.sane.gated hopen) (Bool.eq_true_of_not_eq_false hflight)
        (by omega) ok
  | terminate status =>
    cases hstep
    exact .invoke hbalanced.sane h.late_le h.queued fun _ => h.terminate _ status
  | tick expired =>
    cases hstep
    exact .invoke hbalanced.sane h.late_le h.queued fun _ => h.tick hreading _ expired
  | heartbeatTimeout generation =>
    cases hstep
    exact .invoke hbalanced.sane h.late_le h.queued fun _ => h.heartbeatTimeout hreading _ generation

theorem Prompt.start (registered admitted : Bool) (capacity cleanupReserve : ℕ) :
    (start registered admitted capacity cleanupReserve : ComponentStream F).Prompt := by
  unfold ComponentStream.start
  rcases construct_cases registered admitted with ⟨status, heq⟩ | heq <;> rw [heq]
  · obtain ⟨gate, writeFinish, hfinish, -, hrequested, -, -⟩ :=
      Reactor.requestFinish_eq ({} : Reactor F) status
    rw [hfinish]
    have hended : ¬ (writeFinish.terminationRequested = false) := by simp [hrequested]
    exact ⟨Nat.zero_le 1, Queued.nil, fun hgoing => absurd hgoing hended, fun hgoing => absurd hgoing hended,
      fun hgoing => absurd hgoing hended⟩
  · exact ⟨Nat.zero_le 1, Queued.nil, nofun, fun _ => rfl, nofun⟩

/-- If no delta is offered while a message is being written that was itself offered after the last response
was written, then between the write of a response and the next read at most one message offered in
between is written. -/
theorem late_le_one {registered admitted : Bool} {capacity cleanupReserve : ℕ}
    {actions : List (ComponentStreamAction F)}
    (hrun : RunWhere step OffersBetween (start registered admitted capacity cleanupReserve) actions stream) :
    stream.late ≤ 1 := by
  have hinv : stream.Balanced ∧ stream.Prompt := by
    apply hrun.invariant
    · exact ⟨Balanced.start registered admitted capacity cleanupReserve,
        Prompt.start registered admitted capacity cleanupReserve⟩
    · rintro stream action stream' hbetween hstep ⟨hbalanced, hprompt⟩
      exact ⟨hbalanced.step hstep, hprompt.step hbalanced hbetween hstep⟩
  exact hinv.2.late_le

/-! A response is written while a delta is offered; another is offered while that one is written. -/

def twoDeltas : List (ComponentStreamAction ℤ) :=
  ackedActions ++ [.offerDelta 1 [], .writeDone true, .offerDelta 1 [], .writeDone true]

def twoDeltasStream : ComponentStream ℤ :=
  (execWhere step OffersBetween (start true true 8 1) twoDeltas).getD (start true true 8 1)

theorem late_le_one_twoDeltas :
    twoDeltasStream.late = 1 ∧ twoDeltasStream.reads = 0 ∧ twoDeltasStream.late ≤ 1 := by
  have hrun : RunWhere step OffersBetween (start true true 8 1) twoDeltas twoDeltasStream :=
    .getD_exec (by decide +kernel)
  exact ⟨by decide +kernel, by decide +kernel, late_le_one hrun⟩

/-- With a delta offered during each of those writes as well, three are written before the next read. -/
def deltasEachWrite : List (ComponentStreamAction ℤ) :=
  twoDeltas ++ [.offerDelta 1 [], .writeDone true, .offerDelta 1 [], .writeDone true]

theorem late_of_each_write :
    ∃ stream : ComponentStream ℤ, Run step (start true true 8 1) deltasEachWrite stream ∧ stream.Going ∧
      stream.waitingSince.isSome = true ∧ stream.reads = 0 ∧ stream.late = 3 := by
  refine ⟨(exec step (start true true 8 1) deltasEachWrite).getD (start true true 8 1), ?_, ?_, ?_⟩
  · exact .getD_exec (by decide +kernel)
  · exact ⟨by decide +kernel, by decide +kernel⟩
  · exact ⟨by decide +kernel, by decide +kernel, by decide +kernel⟩

end ComponentStream

end LinuxcncCtrl
