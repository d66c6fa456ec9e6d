import LinuxcncCtrl.Spec.ScopeStream

/-! A frame in the queue that nothing will hand out. The acknowledgement of a frame that a clear has
dropped does not look at the frame that took its place. -/

namespace LinuxcncCtrl

open Lib

variable {P : Type}

namespace ScopeFrameQueue

variable {queue : ScopeFrameQueue P} {owner : ScopeOwner}

theorem owner_clear (queue : ScopeFrameQueue P) (owner : ScopeOwner) :
    (queue.clear owner).owner = queue.owner := by
  unfold clear
  split_ifs <;> rfl

theorem inFlight_clear (h : queue.owner = owner) : (queue.clear owner).inFlight = none := by
  unfold clear
  rw [if_neg (not_not.mpr h)]

theorem publish_accepted (h : queue.owner ≠ []) (frame : ScopeFrame P) :
    (queue.publish frame).1 = true ∧ (queue.publish frame).2.owner = queue.owner := by
  unfold publish
  rw [if_neg h]
  split <;> exact ⟨rfl, rfl⟩

theorem owner_next (queue : ScopeFrameQueue P) (owner : ScopeOwner) :
    (queue.next owner).2.owner = queue.owner := by
  unfold next
  split_ifs <;> rfl

theorem next_delivered (h : queue.owner = owner) :
    (queue.next owner).2.inFlight.isSome = true → (queue.next owner).2.delivered = true := by
  unfold next
  split_ifs with hnone
  · intro hsome
    rcases hnone with howner | hempty | hdelivered
    · exact absurd h howner
    · rw [Option.isNone_iff_eq_none.mp hempty] at hsome
      cases hsome
    · exact hdelivered
  · exact fun _ => rfl

theorem owner_acknowledge (queue : ScopeFrameQueue P) (owner : ScopeOwner) (generation : ℕ) :
    (queue.acknowledge owner generation).2.owner = queue.owner := by
  unfold acknowledge
  split
  next => rfl
  next frame _ =>
    split_ifs
    · rfl
    · split <;> rfl

/-- An acknowledgement leaves the queue alone, or nothing that has not been handed out. -/
theorem acknowledge_cases (queue : ScopeFrameQueue P) (owner : ScopeOwner) (generation : ℕ) :
    queue.acknowledge owner generation = (none, queue) ∨
      ((queue.acknowledge owner generation).2.inFlight.isSome = true →
        (queue.acknowledge owner generation).2.delivered = true) := by
  unfold acknowledge
  split
  next => exact .inl rfl
  next frame _ =>
    split_ifs
    · exact .inl rfl
    · split
      next => exact .inr nofun
      next pending _ => exact .inr fun _ => rfl

end ScopeFrameQueue

namespace ScopeStream

variable {stream stream' : ScopeStream P}

structure Wired (stream : ScopeStream P) : Prop where
  owner : stream.telemetry.owner = stream.queue.owner
  owned : stream.queue.owner ≠ []
  listening : stream.telemetry.registered = true → stream.telemetry.attached = true →
    stream.telemetry.listening = true
  hub : stream.telemetry.registered = true → stream.telemetry.closed = false
  subscribed : stream.telemetry.registered = true → stream.session.phase ≠ .upgrading →
    stream.session.closed = false → stream.session.subscribed = true
  waiting : stream.session.phase ≠ .streaming → stream.session.writing = false

/-- A frame that has not been handed out has a wake on its way. -/
structure Inv (stream : ScopeStream P) : Prop where
  wired : stream.Wired
  heard : stream.Attached → stream.Undelivered → 0 < stream.posted + stream.notifying

/-- Only the queue changes, and it has no undelivered frame that it did not have before. -/
theorem Inv.queue (h : stream.Inv) {queue' : ScopeFrameQueue P} (howner : queue'.owner = stream.queue.owner)
    (hqueue : queue' = stream.queue ∨ (queue'.inFlight.isSome = true → queue'.delivered = true)) :
    ({ stream with queue := queue' } : ScopeStream P).Inv := by
  refine ⟨⟨h.wired.owner.trans howner.symm, howner.trans_ne h.wired.owned, h.wired.listening,
    h.wired.hub, h.wired.subscribed, h.wired.waiting⟩, fun hattached hundelivered => ?_⟩
  rcases hqueue with rfl | hdelivered
  · exact h.heard hattached hundelivered
  · exact absurd ((hdelivered hundelivered.1).symm.trans hundelivered.2) (by decide)

theorem Inv.write (h : stream.Inv) (hphase : stream.session.phase = .streaming)
    (frame : ScopeFrame P) : (stream.write frame).Inv :=
  ⟨{ h.wired with waiting := fun hne => absurd hphase hne }, h.heard⟩

theorem Wired.next (h : stream.Wired) : stream.next.2.Wired := by
  unfold ScopeStream.next
  split_ifs
  · exact h
  · have howner := ScopeFrameQueue.owner_next stream.queue stream.telemetry.owner
    exact { h with owner := h.owner.trans howner.symm, owned := howner.trans_ne h.owned }

/-- A wake of a session that is not writing hands out what there is. -/
theorem inv_wakeScope (h : stream.Wired) (hphase : stream.session.phase = .streaming)
    (hwriting : stream.session.writing = false) : stream.wakeScope.Inv := by
  have hdelivered : stream.next.2.Attached → ¬ stream.next.2.Undelivered := by
    unfold ScopeStream.next
    split_ifs with hdetached
    · intro hattached
      rcases hdetached with hfalse | hfalse
      · cases hattached.1.symm.trans hfalse
      · cases hattached.2.1.symm.trans hfalse
    · intro _ hundelivered
      have htrue := ScopeFrameQueue.next_delivered h.owner.symm hundelivered.1
      cases htrue.symm.trans hundelivered.2
  have hnext : stream.next.2.Inv :=
    ⟨h.next, fun hattached hundelivered => absurd hundelivered (hdelivered hattached)⟩
  have hphase' : stream.next.2.session.phase = .streaming := by
    unfold ScopeStream.next
    split_ifs <;> exact hphase
  unfold wakeScope
  by_cases hclosed : stream.session.closed = true
  · rw [if_pos (.inl hclosed)]
    exact ⟨h, fun hattached => absurd (hattached.2.2.2.symm.trans hclosed) (by decide)⟩
  · rw [if_neg (by rw [hwriting]; simpa using hclosed)]
    generalize stream.next = taken at hnext hphase'
    obtain ⟨frame, stream'⟩ := taken
    cases frame with
    | none => exact hnext
    | some frame => exact hnext.write hphase' frame

theorem Inv.fail (h : stream.Inv) : stream.fail.Inv := by
  unfold ScopeStream.fail
  split_ifs with hclosed
  · exact h
  · have hwired := h.wired
    unfold release
    split_ifs
    · exact ⟨{ hwired with subscribed := nofun },
        fun hattached => absurd hattached.2.2.2 nofun⟩
    · have howner := ScopeFrameQueue.owner_clear stream.queue stream.telemetry.owner
      exact ⟨⟨hwired.owner.trans howner.symm, howner.trans_ne hwired.owned, nofun, hwired.hub, nofun,
        hwired.waiting⟩, fun hattached => absurd hattached.2.2.2 nofun⟩

theorem Inv.onWrite (h : stream.Inv) (hwriting : stream.session.writing = true) (ok : Bool) :
    (stream.onWrite ok).Inv := by
  have hphase : stream.session.phase = .streaming := by
    by_contra hne
    exact absurd (hwriting.symm.trans (h.wired.waiting hne)) (by decide)
  have hbase : ({ stream with session := { stream.session with writing := false } } : ScopeStream P).Inv :=
    ⟨{ h.wired with waiting := fun _ => rfl },
      h.heard⟩
  unfold ScopeStream.onWrite
  dsimp only
  split_ifs with hfailed hclosing
  · exact hbase.fail
  · exact hbase
  · unfold ScopeStream.acknowledge
    split_ifs
    · exact hbase
    · have howner := ScopeFrameQueue.owner_acknowledge stream.queue stream.telemetry.owner
        stream.session.generation
      have hcases := ScopeFrameQueue.acknowledge_cases stream.queue stream.telemetry.owner
        stream.session.generation
      have hqueue := hbase.queue howner (hcases.imp_left fun heq => congrArg Prod.snd heq)
      generalize stream.queue.acknowledge stream.telemetry.owner stream.session.generation =
        taken at hqueue
      obtain ⟨frame, queue'⟩ := taken
      cases frame with
      | none => exact hqueue
      | some frame => exact hqueue.write hphase frame

theorem Inv.publish (h : stream.Inv) (frame : ScopeFrame P)
    (hstep : stream.step (.publish frame) = some stream') : stream'.Inv := by
  cases hstep
  obtain ⟨haccepted, howner⟩ := ScopeFrameQueue.publish_accepted h.wired.owned frame
  refine ⟨⟨h.wired.owner.trans howner.symm, howner.trans_ne h.wired.owned, h.wired.listening,
    h.wired.hub, h.wired.subscribed, h.wired.waiting⟩, fun hattached _ => ?_⟩
  rw [haccepted, h.wired.listening hattached.1 hattached.2.1]
  exact Nat.lt_of_lt_of_le Nat.one_pos (Nat.le_add_left 1 _)

theorem Inv.notify (h : stream.Inv) (hstep : stream.step .notify = some stream') : stream'.Inv := by
  obtain ⟨hpositive, ⟨⟩⟩ := Option.ite_none_left_eq_some.mp hstep
  refine ⟨{ h.wired with }, fun hattached hundelivered => ?_⟩
  have hsubscribed := h.wired.subscribed hattached.1 (hattached.2.2.1.trans_ne (by decide)) hattached.2.2.2
  rw [hsubscribed, h.wired.hub hattached.1]
  have hheard := h.heard hattached hundelivered
  simp only [Bool.not_false, Bool.and_self, Bool.toNat_true]
  omega

theorem Inv.step (h : stream.Inv) {action : ScopeStreamAction P} (hok : stream.Heard action)
    (hstep : stream.step action = some stream') : stream'.Inv := by
  have hwired := h.wired
  cases action with
  | publish frame => exact h.publish frame hstep
  | notify => exact h.notify hstep
  | clear =>
    cases hstep
    refine h.queue (ScopeFrameQueue.owner_clear _ _) (.inr fun hsome => ?_)
    rw [ScopeFrameQueue.inFlight_clear hwired.owner.symm] at hsome
    cases hsome
  | accept =>
    obtain ⟨hguard, ⟨⟩⟩ := Option.ite_none_left_eq_some.mp hstep
    have hupgrading := Decidable.of_not_not (not_or.mp hguard).1
    refine ⟨⟨hwired.owner, hwired.owned, hwired.listening, hwired.hub, fun hregistered _ _ => ?_,
      fun _ => hwired.waiting (hupgrading.trans_ne (by decide))⟩, fun hattached => ?_⟩
    · rw [hregistered, hwired.hub hregistered]
      rfl
    · cases hattached.2.2.1
  | firstWake =>
    obtain ⟨hguard, ⟨⟩⟩ := Option.ite_none_left_eq_some.mp hstep
    have haccepting := Decidable.of_not_not hguard
    have hwriting := hwired.waiting (haccepting.trans_ne (by decide))
    refine inv_wakeScope ⟨hwired.owner, hwired.owned, hwired.listening, hwired.hub,
      fun hregistered _ hclosed => ?_, fun _ => hwriting⟩ rfl hwriting
    exact hwired.subscribed hregistered (haccepting.trans_ne (by decide)) hclosed
  | wake =>
    obtain ⟨hguard, ⟨⟩⟩ := Option.ite_none_left_eq_some.mp hstep
    have hpopped : ({ stream with posted := stream.posted - 1 } : ScopeStream P).Wired :=
      { hwired with }
    cases hwriting : stream.session.writing with
    | false =>
      have hphase := Decidable.of_not_not (not_or.mp hguard).2
      exact inv_wakeScope hpopped hphase hwriting
    | true =>
      unfold wakeScope
      rw [if_pos (.inr hwriting)]
      exact ⟨hpopped, fun _ hundelivered => absurd hundelivered (hok rfl hwriting)⟩
  | writeDone ok =>
    obtain ⟨hwriting, ⟨⟩⟩ := Option.ite_none_right_eq_some.mp hstep
    exact h.onWrite hwriting ok
  | readDone ok =>
    obtain ⟨hphase, ⟨⟩⟩ := Option.ite_none_right_eq_some.mp hstep
    unfold onRead
    split_ifs
    · exact h.fail
    · exact ⟨{ hwired with }, h.heard⟩
  | fail =>
    obtain ⟨-, ⟨⟩⟩ := Option.ite_none_left_eq_some.mp hstep
    exact h.fail
  | revoke =>
    cases hstep
    exact ⟨⟨hwired.owner, hwired.owned, nofun, nofun, nofun, hwired.waiting⟩,
      fun hattached => absurd hattached.1 nofun⟩

theorem Claimed.inv (h : stream.Claimed) : stream.Inv := by
  have htelemetry := h.telemetry
  have hsession := h.session
  refine ⟨⟨?_, h.owner, ?_, ?_, ?_, ?_⟩, ?_⟩
  · rw [htelemetry]
  · intro _ _
    rw [htelemetry]
  · intro _
    rw [htelemetry]
  · intro _ hphase
    rw [hsession] at hphase
    exact absurd rfl hphase
  · intro _
    rw [hsession]
  · intro hattached
    rw [Attached, hsession] at hattached
    cases hattached.2.2.1

/-- No frame is stranded in a run whose wakes are all heard: when the session is attached and nothing is
under way, the queue has no undelivered frame. -/
theorem scopeFrames_notStranded {initial : ScopeStream P} (hclaimed : initial.Claimed)
    {actions : List (ScopeStreamAction P)}
    (hrun : RunWhere ScopeStream.step ScopeStream.Heard initial actions stream)
    (hattached : stream.Attached) (hidle : stream.Idle) : ¬ stream.Undelivered := by
  have hinv : stream.Inv :=
    RunWhere.invariant hclaimed.inv (fun _ _ _ hok hstep h => h.step hok hstep) hrun
  intro hundelivered
  have hheard := hinv.heard hattached hundelivered
  rw [hidle.2.1, hidle.2.2] at hheard
  cases hheard

/-! A frame is being written when a stop clears the queue and a capture is published. -/

def claimedStream : ScopeStream ℕ :=
  { telemetry := { owner := ['o'] }
    queue := { owner := ['o'] } }

theorem claimedStream_claimed : claimedStream.Claimed :=
  ⟨rfl, by decide, rfl, rfl, rfl⟩

def clearedActions : List (ScopeStreamAction ℕ) :=
  [.accept, .firstWake, .publish { payload := 0 }, .notify, .wake, .clear, .publish { payload := 1 },
    .notify]

/-- The write ends before the wake runs. -/
def caughtUp : ScopeStream ℕ :=
  (execWhere ScopeStream.step ScopeStream.Heard claimedStream
    (clearedActions ++ [.writeDone true, .wake, .writeDone true])).getD claimedStream

theorem caughtUp_run : RunWhere ScopeStream.step ScopeStream.Heard claimedStream
      (clearedActions ++ [.writeDone true, .wake, .writeDone true]) caughtUp :=
  .getD_exec (by decide)

theorem scopeFrames_notStranded_caughtUp :
    caughtUp.written.map ScopeFrame.payload = [0, 1] ∧ caughtUp.Attached ∧ caughtUp.Idle ∧
      ¬ caughtUp.Undelivered := by
  have hattached : caughtUp.Attached := ⟨rfl, rfl, rfl, rfl⟩
  have hidle : caughtUp.Idle := ⟨rfl, rfl, rfl⟩
  exact ⟨rfl, hattached, hidle, scopeFrames_notStranded claimedStream_claimed caughtUp_run hattached hidle⟩

/-- The wake runs before the write ends. -/
def missed : ScopeStream ℕ :=
  (exec ScopeStream.step claimedStream (clearedActions ++ [.wake, .writeDone true])).getD
    claimedStream

theorem missed_run :
    Run ScopeStream.step claimedStream (clearedActions ++ [.wake, .writeDone true]) missed :=
  .of_exec rfl

/-- The second frame is in the queue, the session is idle and no wake is left. -/
theorem scopeFrames_stranded : claimedStream.Claimed ∧
    Run ScopeStream.step claimedStream (clearedActions ++ [.wake, .writeDone true]) missed ∧
    missed.Attached ∧ missed.Idle ∧ missed.Undelivered ∧
    missed.written.map ScopeFrame.payload = [0] :=
  ⟨claimedStream_claimed, missed_run, ⟨rfl, rfl, rfl, rfl⟩, ⟨rfl, rfl, rfl⟩, ⟨rfl, rfl⟩, rfl⟩

end ScopeStream

end LinuxcncCtrl
