import LinuxcncCtrl.Sanity.HalValueTelemetry

/-! A client of a HAL value stream has the snapshot that the last frame was encoded from, and the current
one when nothing is under way, in every run that does not exhaust the 32-bit slots. -/

namespace LinuxcncCtrl

open Lib

variable {V : Type}

/-- The values the session compares the next frame with are those of this snapshot. -/
def HalSession.Settled (session : HalSession V) : Option (HalTelemetrySnapshot V) → Prop
  | none => session.revision = 0
  | some snapshot => session.revision = snapshot.revision ∧ session.values = snapshot.values

namespace HalTelemetrySnapshot

/-- The subscription has this revision with the same bindings, or a later one. -/
def Precedes (snapshot : HalTelemetrySnapshot V) (state : HalTelemetryState V) : Prop :=
  snapshot.revision < state.revision ∨
    snapshot.revision = state.revision ∧ snapshot.bindings = state.bindings

def Current (snapshot : HalTelemetrySnapshot V) (state : HalTelemetryState V) : Prop :=
  snapshot.revision = state.revision ∧ snapshot.values = state.values

end HalTelemetrySnapshot

structure FrameSound (earlier : List (HalValueFrame V × HalTelemetrySnapshot V))
    (pair : HalValueFrame V × HalTelemetrySnapshot V) : Prop where
  revision : pair.1.revision = pair.2.revision
  proper : pair.2.Proper
  slots : pair.2.Matches (clientSlots ((earlier ++ [pair]).map Prod.fst))
  first : pair.1.replacement = false → ∃ frame ∈ earlier, frame.1.revision = pair.1.revision

namespace HalValueStream

variable {stream stream' : HalValueStream V}

def last (stream : HalValueStream V) : Option (HalTelemetrySnapshot V) :=
  stream.frames.getLast?.map Prod.snd

/-- What holds whether or not a wake is on its way. -/
structure Wired (stream : HalValueStream V) : Prop where
  valid : ∀ state ∈ stream.subscription, state.Valid
  sound : ∀ earlier pair, earlier ++ [pair] <+: stream.frames → FrameSound earlier pair
  precedes : ∀ snapshot ∈ stream.last, ∀ state ∈ stream.subscription, snapshot.Precedes state
  written : stream.session.closed = false → stream.session.writing = true →
    stream.session.writeSnapshot = stream.last ∧ stream.last.isSome = true
  settled : stream.session.closed = false → stream.session.writing = false →
    stream.session.Settled stream.last
  subscribed : stream.session.phase ≠ .upgrading → stream.session.closed = false →
    stream.subscription.isSome = true → stream.session.subscribed = true
  waiting : stream.session.phase ≠ .streaming → stream.session.writing = false

/-- A sampled subscription whose values the client has not been sent has a wake on its way. -/
structure Inv (stream : HalValueStream V) : Prop where
  wired : stream.Wired
  fresh : stream.Attached → ∀ state ∈ stream.subscription, state.sampled = true →
    0 < stream.posted + stream.notifying ∨
      (stream.session.writing = true ∧ stream.session.dirty = true) ∨
      ∃ snapshot ∈ stream.last, snapshot.Current state

theorem clientSlots_append (frames : List (HalValueFrame V)) (frame : HalValueFrame V) :
    clientSlots (frames ++ [frame]) = frame.apply (clientSlots frames) := by
  unfold clientSlots
  rw [List.foldl_append]
  rfl

theorem last_write (stream : HalValueStream V) (snapshot : HalTelemetrySnapshot V)
    (frame : HalValueFrame V) :
    (stream.write snapshot frame).last = some snapshot := by
  unfold last write
  rw [List.getLast?_append_of_ne_nil _ (List.cons_ne_nil _ _)]
  rfl

theorem Wired.last_matches (h : stream.Wired) {snapshot : HalTelemetrySnapshot V}
    (hlast : stream.last = some snapshot) :
    snapshot.Proper ∧ snapshot.Matches (clientSlots stream.sent) ∧
      ∃ pair ∈ stream.frames, pair.1.revision = snapshot.revision := by
  obtain ⟨pair, hpair, rfl⟩ := Option.map_eq_some_iff.mp hlast
  obtain ⟨earlier, hframes⟩ := List.getLast?_eq_some_iff.mp hpair
  have hsound := h.sound earlier pair (by rw [hframes])
  refine ⟨hsound.proper, ?_, pair, List.mem_of_getLast? hpair, hsound.revision⟩
  unfold sent
  rw [hframes]
  exact hsound.slots

variable {state : HalTelemetryState V}

theorem Wired.write (h : stream.Wired)
    (hstate : stream.subscription = some state) (hphase : stream.session.phase = .streaming)
    {frame : HalValueFrame V} (hsound : FrameSound stream.frames (frame, state.snapshot)) :
    (stream.write state.snapshot frame).Wired := by
  have hlast := last_write stream state.snapshot frame
  refine ⟨h.valid, ?_, ?_, ?_, nofun, h.subscribed, fun hne => absurd hphase hne⟩
  · intro earlier pair hpath
    rcases List.prefix_concat_iff.mp hpath with heq | hold
    · obtain ⟨rfl, rfl⟩ := List.append_singleton_inj.mp heq
      exact hsound
    · exact h.sound earlier pair hold
  · intro snapshot hsnapshot current hcurrent
    rw [hlast, Option.mem_some_iff] at hsnapshot
    have hsame : state = current := Option.some.inj (hstate.symm.trans hcurrent)
    rw [← hsnapshot, ← hsame]
    exact .inr ⟨rfl, rfl⟩
  · intro _ _
    rw [hlast]
    exact ⟨rfl, rfl⟩

theorem Wired.inv_of_closed (h : stream.Wired) (hclosed : stream.session.closed = true) : stream.Inv :=
  ⟨h, fun hattached => absurd (hclosed.symm.trans hattached.2.1) (by decide)⟩

/-- Nothing is asked of a closed session but that it waits for its turn. -/
theorem Wired.closed (h : stream.Wired) {session : HalSession V} (hclosed : session.closed = true)
    (hwaiting : session.phase ≠ .streaming → session.writing = false) :
    ({ stream with session } : HalValueStream V).Inv := by
  have hopen : ¬ session.closed = false := by
    rw [hclosed]
    decide
  exact Wired.inv_of_closed ⟨h.valid, h.sound, h.precedes, fun hfalse => absurd hfalse hopen,
    fun hfalse => absurd hfalse hopen, fun _ hfalse => absurd hfalse hopen, hwaiting⟩ hclosed

theorem Wired.inv_fail (h : stream.Wired) : stream.fail.Inv := by
  unfold HalValueStream.fail
  split_ifs with hclosed
  · exact h.inv_of_closed hclosed
  · exact h.closed rfl h.waiting

/-- The write of the last frame has ended. -/
def unwritten (stream : HalValueStream V) : HalValueStream V :=
  { stream with session := { stream.session with writing := false } }

theorem settle_spec (stream : HalValueStream V) : ∃ revision values writeSnapshot, stream.settle =
      { stream with session := { stream.session with revision, values, writeSnapshot } } := by
  unfold HalValueStream.settle
  split
  · exact ⟨_, _, _, rfl⟩
  · exact ⟨_, _, _, rfl⟩

theorem Wired.settle (h : stream.Wired) (hwriting : stream.session.writing = true) :
    stream.unwritten.settle.Wired := by
  cases hclosed : stream.session.closed with
  | true =>
    obtain ⟨revision, values, writeSnapshot, heq⟩ := settle_spec stream.unwritten
    rw [heq]
    exact (h.closed (by exact hclosed) fun _ => (by rfl)).wired
  | false =>
    obtain ⟨hwrite, hsome⟩ := h.written hclosed hwriting
    obtain ⟨snapshot, hsnapshot⟩ := Option.isSome_iff_exists.mp hsome
    unfold HalValueStream.settle unwritten
    simp only [hwrite.trans hsnapshot]
    refine ⟨h.valid, h.sound, h.precedes, nofun, fun _ _ => ?_, h.subscribed, fun _ => rfl⟩
    show HalSession.Settled _ stream.last
    rw [hsnapshot]
    exact ⟨rfl, rfl⟩

theorem Wired.sound_replacement (h : stream.Wired) (hstate : stream.subscription = some state) :
    FrameSound stream.frames (state.snapshot.encodeHalFrame true [], state.snapshot) := by
  refine ⟨rfl, (h.valid state hstate).proper, ?_, nofun⟩
  rw [List.map_append, List.map_singleton, clientSlots_append]
  exact (h.valid state hstate).proper.matches_replacement _

theorem Wired.last_of_revision (h : stream.Wired)
    (hstate : stream.subscription = some state) (hclosed : stream.session.closed = false)
    (hwriting : stream.session.writing = false)
    (hrevision : stream.session.revision = state.revision) :
    ∃ snapshot, stream.last = some snapshot ∧ snapshot.revision = state.revision ∧
      state.bindings = snapshot.bindings ∧ stream.session.values = snapshot.values := by
  have hsettled := h.settled hclosed hwriting
  cases hlast : stream.last with
  | none =>
    rw [hlast] at hsettled
    have hpositive := (h.valid state hstate).revision
    rw [← hrevision, hsettled] at hpositive
    cases hpositive
  | some snapshot =>
    rw [hlast] at hsettled
    have hsame : snapshot.revision = state.revision := hsettled.1.symm.trans hrevision
    refine ⟨snapshot, rfl, hsame, ?_, hsettled.2⟩
    rcases h.precedes snapshot hlast state hstate with hlt | ⟨-, hbindings⟩
    · omega
    · exact hbindings.symm

/-- Another state of the subscription, with its listeners still to be called. -/
theorem Inv.replace (h : stream.Inv) {updated : HalTelemetryState V}
    (hstate : stream.subscription = some state) (hvalid : updated.Valid)
    (hprecedes : ∀ snapshot : HalTelemetrySnapshot V, snapshot.Precedes state → snapshot.Precedes updated) :
    ({ stream with subscription := some updated, notifying := stream.notifying + 1 } :
      HalValueStream V).Inv := by
  have hwired := h.wired
  refine ⟨{ hwired with valid := ?_, precedes := ?_, subscribed := ?_ },
    fun _ _ _ _ => .inl (Nat.succ_pos _)⟩
  · intro current hcurrent
    rw [← Option.some.inj hcurrent]
    exact hvalid
  · intro snapshot hsnapshot current hcurrent
    rw [← Option.some.inj hcurrent]
    exact hprecedes snapshot (hwired.precedes snapshot hsnapshot state hstate)
  · intro hphase hclosed _
    exact hwired.subscribed hphase hclosed (by rw [hstate]; rfl)

section Steps

variable [DecidableEq V]

theorem Wired.sound_delta (h : stream.Wired)
    (hstate : stream.subscription = some state) (hclosed : stream.session.closed = false)
    (hwriting : stream.session.writing = false)
    (hrevision : stream.session.revision = state.revision) :
    FrameSound stream.frames
      (state.snapshot.encodeHalFrame false (stream.session.changed state.snapshot), state.snapshot) := by
  obtain ⟨snapshot, hlast, hsame, hbindings, hvalues⟩ :=
    h.last_of_revision hstate hclosed hwriting hrevision
  obtain ⟨-, hmatches, pair, hpair, hpairRevision⟩ := h.last_matches hlast
  refine ⟨rfl, (h.valid state hstate).proper, ?_, fun _ => ⟨pair, hpair, hpairRevision.trans hsame⟩⟩
  rw [List.map_append, List.map_singleton, clientSlots_append]
  exact (h.valid state hstate).proper.matches_delta hmatches hbindings hvalues

theorem Wired.inv_sendHal (h : stream.Wired) (hphase : stream.session.phase = .streaming)
    (hwriting : stream.session.writing = false) : stream.sendHal.Inv := by
  unfold sendHal
  cases hclosed : stream.session.closed with
  | true =>
    rw [snapshot, if_pos hclosed]
    exact h.inv_fail
  | false =>
    rw [snapshot, hclosed, if_neg Bool.false_ne_true]
    cases hstate : stream.subscription with
    | none => exact h.inv_fail
    | some state =>
      simp only [Option.map_some]
      split_ifs with hsampled hrevision hchanged
      · refine ⟨h, fun _ current hcurrent htrue => ?_⟩
        cases hstate.symm.trans hcurrent
        cases htrue.symm.trans hsampled
      · -- no frame yet of this revision
        refine ⟨h.write hstate hphase (h.sound_replacement hstate), fun _ current hcurrent _ => ?_⟩
        cases hstate.symm.trans hcurrent
        exact .inr (.inr ⟨_, last_write _ _ _, rfl, rfl⟩)
      · refine ⟨h, fun _ current hcurrent _ => ?_⟩
        cases hstate.symm.trans hcurrent
        obtain ⟨snapshot, hlast, hsame, hbindings, hvalues⟩ :=
          h.last_of_revision hstate hclosed hwriting (Decidable.of_not_not hrevision)
        have hlength : stream.session.values.length = state.values.length := by
          rw [hvalues, ← (h.last_matches hlast).1.lengths, ← hbindings, (h.valid state hstate).lengths]
        refine .inr (.inr ⟨snapshot, hlast, hsame, ?_⟩)
        rw [← hvalues]
        exact HalTelemetrySnapshot.values_eq_of_changed_nil hchanged hlength
      · refine ⟨h.write hstate hphase
          (h.sound_delta hstate hclosed hwriting (Decidable.of_not_not hrevision)),
          fun _ current hcurrent _ => ?_⟩
        cases hstate.symm.trans hcurrent
        exact .inr (.inr ⟨_, last_write _ _ _, rfl, rfl⟩)

theorem Inv.update (h : stream.Inv) {request : HalValueRequest} (hok : stream.SlotsLeft (.update request))
    (hstep : stream.step (.update request) = some stream') : stream'.Inv := by
  dsimp only [step] at hstep
  cases hstate : stream.subscription with
  | none =>
    simp only [hstate, Option.some.injEq] at hstep
    exact hstep ▸ h
  | some state =>
    simp only [hstate] at hstep
    cases hupdate : state.doUpdateValueSubscription request with
    | error status =>
      simp only [hupdate, Option.some.injEq] at hstep
      exact hstep ▸ h
    | ok updated =>
      simp only [hupdate, Option.some.injEq] at hstep
      obtain ⟨hvalid, hrevision⟩ :=
        (h.wired.valid state hstate).doUpdate (hok state hstate) hupdate
      rw [← hstep]
      refine h.replace hstate hvalid fun snapshot hprecedes => .inl ?_
      rw [hrevision]
      rcases hprecedes with hlt | ⟨heq, -⟩
      · omega
      · omega

theorem Inv.publish (h : stream.Inv) {revision : ℕ} {values : List (Option V)}
    (hstep : stream.step (.publish revision values) = some stream') : stream'.Inv := by
  dsimp only [step] at hstep
  cases hpublish : stream.subscription.bind fun state => state.publish revision values with
  | none =>
    simp only [hpublish, Option.some.injEq] at hstep
    exact hstep ▸ h
  | some published =>
    simp only [hpublish, Option.some.injEq] at hstep
    obtain ⟨state, hstate, hpublished⟩ := Option.bind_eq_some_iff.mp hpublish
    have hvalid := (h.wired.valid state hstate).publish hpublished
    obtain ⟨-, -, rfl⟩ := HalTelemetryState.publish_spec hpublished
    rw [← hstep]
    exact h.replace hstate hvalid fun _ hprecedes => hprecedes

theorem Inv.notify (h : stream.Inv) (hstep : stream.step .notify = some stream') : stream'.Inv := by
  obtain ⟨hpositive, ⟨⟩⟩ := Option.ite_none_left_eq_some.mp hstep
  have hwired := h.wired
  refine ⟨{ hwired with }, fun hattached state hstate hsampled => ?_⟩
  have hsubscribed : stream.session.subscribed = true :=
    hwired.subscribed (hattached.1.trans_ne (by decide)) hattached.2.1
      (Option.isSome_iff_exists.mpr ⟨state, hstate⟩)
  refine (h.fresh hattached state hstate hsampled).imp_left fun _ => ?_
  dsimp only
  rw [hsubscribed, Bool.toNat_true]
  omega

theorem Inv.wake (h : stream.Inv) (hstep : stream.step .wake = some stream') : stream'.Inv := by
  obtain ⟨hguard, ⟨⟩⟩ := Option.ite_none_left_eq_some.mp hstep
  have hwired := h.wired
  have hpopped : ({ stream with posted := stream.posted - 1 } : HalValueStream V).Wired :=
    { hwired with }
  unfold wakeHal
  split_ifs with hclosed hwriting
  · exact hpopped.inv_of_closed hclosed
  · exact ⟨{ hwired with }, fun _ _ _ _ => .inr (.inl ⟨hwriting, rfl⟩)⟩
  · exact hpopped.inv_sendHal (Decidable.of_not_not (not_or.mp hguard).2)
      (Bool.eq_false_of_not_eq_true hwriting)

def resume (stream : HalValueStream V) : HalValueStream V :=
  if stream.session.closing then stream
  else if stream.session.dirty then
    { stream with session := { stream.session with dirty := false } }.sendHal
  else stream

theorem Wired.inv_resume (h : stream.Wired) (hphase : stream.session.phase = .streaming)
    (hwriting : stream.session.writing = false)
    (hfresh : stream.session.dirty = false → stream.Attached → ∀ state ∈ stream.subscription,
      state.sampled = true → 0 < stream.posted + stream.notifying ∨
        ∃ snapshot ∈ stream.last, snapshot.Current state) : stream.resume.Inv := by
  unfold resume
  split_ifs with hclosing hdirty
  · exact ⟨h, fun hattached => absurd (hclosing.symm.trans hattached.2.2) (by decide)⟩
  · exact Wired.inv_sendHal { h with } hphase hwriting
  · refine ⟨h, fun hattached state hstate hsampled => ?_⟩
    rcases hfresh (Bool.eq_false_of_not_eq_true hdirty) hattached state hstate hsampled with
      hwake | hlast
    · exact .inl hwake
    · exact .inr (.inr hlast)

theorem Inv.onWrite (h : stream.Inv) (hwriting : stream.session.writing = true) (ok : Bool) :
    (stream.onWrite ok).Inv := by
  have hwired := h.wired
  cases ok with
  | false =>
    show stream.unwritten.fail.Inv
    unfold HalValueStream.fail
    split_ifs with hclosed
    · exact hwired.closed hclosed fun _ => rfl
    · exact hwired.closed rfl fun _ => rfl
  | true =>
    have hsettled := hwired.settle hwriting
    obtain ⟨revision, values, writeSnapshot, heq⟩ := settle_spec stream.unwritten
    have hphase : stream.session.phase = .streaming := by
      by_contra hne
      exact absurd (hwriting.symm.trans (hwired.waiting hne)) (by decide)
    show stream.unwritten.settle.resume.Inv
    rw [heq] at hsettled ⊢
    refine hsettled.inv_resume hphase rfl fun hdirty hattached state hstate hsampled => ?_
    rcases h.fresh hattached state hstate hsampled with hwake | ⟨-, htrue⟩ | hlast
    · exact .inl hwake
    · cases htrue.symm.trans hdirty
    · exact .inr hlast

theorem Inv.step (h : stream.Inv) {action : HalValueAction V} (hok : stream.SlotsLeft action)
    (hstep : stream.step action = some stream') : stream'.Inv := by
  have hwired := h.wired
  cases action with
  | update request => exact h.update hok hstep
  | publish revision values => exact h.publish hstep
  | erase =>
    cases hstep
    exact ⟨{ hwired with valid := nofun, precedes := nofun, subscribed := nofun }, nofun⟩
  | notify => exact h.notify hstep
  | accept =>
    obtain ⟨hguard, ⟨⟩⟩ := Option.ite_none_left_eq_some.mp hstep
    have hwriting := hwired.waiting ((Decidable.of_not_not hguard).trans_ne (by decide))
    refine ⟨{ hwired with subscribed := fun _ hclosed hsome => ?_, waiting := fun _ => hwriting },
      fun hattached => absurd hattached.1 nofun⟩
    rw [hclosed, hsome]
    rfl
  | firstSend =>
    obtain ⟨hguard, ⟨⟩⟩ := Option.ite_none_left_eq_some.mp hstep
    have haccepting := Decidable.of_not_not hguard
    have hwriting := hwired.waiting (haccepting.trans_ne (by decide))
    refine Wired.inv_sendHal { hwired with subscribed := fun _ => ?_, waiting := fun _ => hwriting } rfl hwriting
    exact hwired.subscribed (haccepting.trans_ne (by decide))
  | wake => exact h.wake hstep
  | writeDone ok =>
    obtain ⟨hwriting, ⟨⟩⟩ := Option.ite_none_right_eq_some.mp hstep
    exact h.onWrite hwriting ok
  | readDone ok =>
    obtain ⟨-, ⟨⟩⟩ := Option.ite_none_right_eq_some.mp hstep
    unfold onRead
    split_ifs
    · exact hwired.inv_fail
    · exact ⟨{ hwired with }, fun hattached => absurd hattached.2.2 nofun⟩
  | fail =>
    obtain ⟨-, ⟨⟩⟩ := Option.ite_none_left_eq_some.mp hstep
    exact hwired.inv_fail

end Steps

theorem inv_claimed (h : state.Valid) : (claimed state).Inv := by
  refine ⟨⟨?_, ?_, nofun, nofun, fun _ _ => rfl, fun hphase => absurd rfl hphase, fun _ => rfl⟩,
    fun hattached => absurd hattached.1 nofun⟩
  · intro current hcurrent
    rw [← Option.some.inj hcurrent]
    exact h
  · intro earlier pair hpath
    exact absurd (List.prefix_nil.mp hpath) (List.append_ne_nil_of_right_ne_nil _ nofun)

/-- The client of a subscription that never runs out of slots. After each frame its slots are those of
the snapshot the frame was encoded from, and the first frame of a revision is a replacement; a sample
of another revision changes nothing; and when nothing is under way a sampled subscription is what the
client has. -/
theorem halValues_reconstructed [DecidableEq V] {request : HalValueRequest} {state : HalTelemetryState V}
    (hcreate : HalTelemetryState.doCreateValueSubscription request = .ok state)
    {actions : List (HalValueAction V)}
    (hrun : RunWhere HalValueStream.step HalValueStream.SlotsLeft (claimed state) actions stream) :
    (∀ earlier frame snapshot, earlier ++ [(frame, snapshot)] <+: stream.frames →
      snapshot.Matches (clientSlots ((earlier ++ [(frame, snapshot)]).map Prod.fst)) ∧
        ((∀ other ∈ earlier, other.1.revision ≠ frame.revision) → frame.replacement = true)) ∧
    (∀ current ∈ stream.subscription, ∀ revision values, revision ≠ current.revision →
      stream.step (.publish revision values) = some stream) ∧
    (stream.Attached → stream.Idle → ∀ current ∈ stream.subscription, current.sampled = true →
      current.snapshot.Matches (clientSlots stream.sent)) := by
  have hinv : stream.Inv :=
    hrun.invariant (inv_claimed (HalTelemetryState.valid_doCreate hcreate))
      fun _ _ _ hok hstep h => h.step hok hstep
  refine ⟨fun earlier frame snapshot hpath => ?_, fun current hcurrent revision values hne => ?_,
    fun hattached hidle current hcurrent hsampled => ?_⟩
  · have hsound := hinv.wired.sound earlier (frame, snapshot) hpath
    refine ⟨hsound.slots, fun hfirst => ?_⟩
    by_contra hdelta
    obtain ⟨other, hother, hrevision⟩ := hsound.first (Bool.eq_false_of_not_eq_true hdelta)
    exact hfirst other hother hrevision
  · have hnone : (stream.subscription.bind fun state => state.publish revision values) = none := by
      rw [Option.mem_def.mp hcurrent, Option.bind_some]
      exact if_pos (.inl hne.symm)
    dsimp only [step]
    rw [hnone]
  · rcases hinv.fresh hattached current hcurrent hsampled with
      hwake | ⟨hwriting, -⟩ | ⟨snapshot, hlast, hrevision, hvalues⟩
    · rw [hidle.2.1, hidle.2.2] at hwake
      cases hwake
    · cases hwriting.symm.trans hidle.1
    · have hmatches := (hinv.wired.last_matches hlast).2.1
      have hbindings : snapshot.bindings = current.bindings := by
        rcases hinv.wired.precedes snapshot hlast current hcurrent with hlt | ⟨-, hbindings⟩
        · omega
        · exact hbindings
      unfold HalTelemetrySnapshot.Matches at hmatches
      rw [hbindings, hvalues] at hmatches
      exact hmatches

/-! Two items whose order is changed while a frame is being written, and a sample of the superseded
revision. -/

def itemX : HalTelemetryReference := ⟨.pin, ['x']⟩
def itemA : HalTelemetryReference := ⟨.pin, ['a']⟩
def itemB : HalTelemetryReference := ⟨.pin, ['b']⟩

def requestOf (expectedRevision : ℕ) (items : List HalTelemetryReference) : HalValueRequest :=
  { expectedRevision
    items := items.map some
    samplePeriodMs := 0
    types := fun _ => some .float
    budget := true }

def twoItems : HalTelemetryState ℕ :=
  HalTelemetryState.create [⟨itemX, .float⟩, ⟨itemA, .float⟩] 100

theorem twoItems_created :
    HalTelemetryState.doCreateValueSubscription (requestOf 0 [itemX, itemA]) = .ok twoItems := rfl

def reorderActions : List (HalValueAction ℕ) :=
  [.accept, .firstSend, .publish 1 [some 1, some 2], .notify, .wake, .publish 1 [some 1, none],
    .notify, .wake, .writeDone true, .update (requestOf 1 [itemA, itemB, itemX]), .notify, .wake,
    .publish 1 [some 3, some 4], .publish 2 [some 5, some 6, some 7], .writeDone true, .notify, .wake,
    .writeDone true]

def reordered : HalValueStream ℕ :=
  (execWhere HalValueStream.step HalValueStream.SlotsLeft (claimed twoItems) reorderActions).getD
    (claimed twoItems)

theorem reordered_run :
    RunWhere HalValueStream.step HalValueStream.SlotsLeft (claimed twoItems) reorderActions
      reordered :=
  .getD_exec (by decide +kernel)

theorem halValues_reconstructed_reordered : reordered.sent.map HalValueFrame.entries =
      [[(0, some 1), (1, some 2)], [(1, none)], [(1, some 5), (2, some 6), (0, some 7)]] ∧
    ∀ current ∈ reordered.subscription, current.snapshot.Matches (clientSlots reordered.sent) := by
  have hattached : reordered.Attached := ⟨by decide +kernel, by decide +kernel, by decide +kernel⟩
  have hidle : reordered.Idle := ⟨by decide +kernel, by decide +kernel, by decide +kernel⟩
  have hsampled : ∀ current ∈ reordered.subscription, current.sampled = true := by decide +kernel
  refine ⟨by decide +kernel, fun current hcurrent => ?_⟩
  exact (halValues_reconstructed twoItems_created reordered_run).2.2 hattached hidle current hcurrent
    (hsampled current hcurrent)

/-! One item stays while the other is exchanged until the slot counter has wrapped. -/

/-- The item beside `itemX` after `n` updates. -/
def exchanged (n : ℕ) : HalTelemetryReference := if n % 2 = 0 then itemA else itemB

def afterUpdates (n : ℕ) : HalTelemetryState ℕ :=
  { samplePeriod := 100
    revision := n + 1
    sequence := n
    nextSlot := UInt32.ofNat (n + 2)
    bindings := [⟨0, itemX, .float⟩, ⟨UInt32.ofNat (n + 1), exchanged n, .float⟩]
    values := [none, none] }

def exchangeActions : ℕ → List (HalValueAction ℕ)
  | 0 => []
  | n + 1 => exchangeActions n ++ [.update (requestOf (n + 1) [itemX, exchanged (n + 1)])] ++ [.notify]

theorem itemX_ne_exchanged (n : ℕ) : itemX ≠ exchanged n := by
  unfold exchanged
  split_ifs <;> decide

theorem exchanged_ne_succ (n : ℕ) : exchanged n ≠ exchanged (n + 1) := by
  unfold exchanged
  rcases Nat.mod_two_eq_zero_or_one n with heven | hodd
  · rw [if_pos heven, if_neg (by omega)]
    decide
  · rw [if_neg (by omega), if_pos (by omega)]
    decide

theorem resolve_exchanged (bindings : List HalTelemetryBinding) (revision n : ℕ) :
    resolveSubscriptionItems (requestOf revision [itemX, exchanged n]).types bindings
        (requestOf revision [itemX, exchanged n]).items =
      .ok [⟨itemX, .float⟩, ⟨exchanged n, .float⟩] := by
  have hne := (itemX_ne_exchanged n).symm
  simp [resolveSubscriptionItems, requestOf, decodeReferences, hne, resolveReference, bind,
    Except.bind, pure, Except.pure]

theorem prior_exchanged (n : ℕ) : (afterUpdates n).prior ⟨exchanged (n + 1), .float⟩ = none := by
  simp [HalTelemetryState.prior, afterUpdates, itemX_ne_exchanged, exchanged_ne_succ]

theorem afterUpdates_succ (n : ℕ) :
    (afterUpdates n).doUpdateValueSubscription (requestOf (n + 1) [itemX, exchanged (n + 1)]) =
      .ok (afterUpdates (n + 1)) := by
  have hslot : UInt32.ofNat (n + 2) + 1 = UInt32.ofNat (n + 3) := by
    rw [show n + 3 = n + 2 + 1 from rfl, UInt32.ofNat_add (n + 2)]
    rfl
  have hkept : (afterUpdates n).prior ⟨itemX, .float⟩ = some (⟨0, itemX, .float⟩, none) := rfl
  have hupdate : (afterUpdates n).update [⟨itemX, .float⟩, ⟨exchanged (n + 1), .float⟩] 100 =
      afterUpdates (n + 1) := by
    simp only [HalTelemetryState.update, HalTelemetryState.rebind, hkept, prior_exchanged]
    simp only [afterUpdates, hslot]
    rfl
  unfold HalTelemetryState.doUpdateValueSubscription
  rw [if_neg (not_not.mpr (by rfl)), resolve_exchanged]
  exact congrArg Except.ok hupdate

theorem exchange_run (n : ℕ) :
    Run HalValueStream.step (claimed twoItems) (exchangeActions n) (claimed (afterUpdates n)) := by
  induction n with
  | zero => exact .nil
  | succ n ih =>
    refine .snoc (.snoc ih (?_ : _ = some
      { claimed (afterUpdates (n + 1)) with notifying := 1 })) rfl
    dsimp only [step, claimed]
    rw [afterUpdates_succ]

/-- The first frame after `n` updates and a sample. -/
def exchangedFrame (n : ℕ) : HalValueFrame ℕ :=
  { replacement := true
    revision := n + 1
    sequence := n + 1
    entries := [(0, some 1), (UInt32.ofNat (n + 1), some 2)] }

def exchangedSnapshot (n : ℕ) : HalTelemetrySnapshot ℕ :=
  { (afterUpdates n).snapshot with
    sampled := true
    sequence := n + 1
    values := [some 1, some 2] }

def sampledActions (n : ℕ) : List (HalValueAction ℕ) :=
  exchangeActions n ++ [.publish (n + 1) [some 1, some 2]] ++ [.accept] ++ [.firstSend]

theorem sampled_run (n : ℕ) :
    ∃ stream, Run HalValueStream.step (claimed twoItems) (sampledActions n) stream ∧
      stream.frames = [(exchangedFrame n, exchangedSnapshot n)] := by
  have hpublish : (afterUpdates n).publish (n + 1) [some 1, some 2] = some { afterUpdates n with
        values := [some 1, some 2], sampled := true, sequence := n + 1 } := by
    unfold HalTelemetryState.publish
    rw [if_neg (fun hor => hor.elim (absurd rfl) (absurd rfl)), if_neg (fun hand => nomatch hand.1)]
    rfl
  have hstep : (claimed (afterUpdates n)).step (.publish (n + 1) [some 1, some 2]) =
      some { subscription := some { afterUpdates n with
        values := [some 1, some 2], sampled := true, sequence := n + 1 }, notifying := 1 } := by
    dsimp only [step, claimed, Option.bind_some]
    rw [hpublish]
  exact ⟨_, .snoc (.snoc (.snoc (exchange_run n) hstep) rfl) rfl, rfl⟩

/-- After 2^32 - 1 updates the frame has two entries for slot 0, and the client takes the second one for
both items. -/
theorem halValues_slot_reused :
    HalTelemetryState.doCreateValueSubscription (requestOf 0 [itemX, itemA]) = .ok twoItems ∧
    ∃ stream, Run HalValueStream.step (claimed twoItems) (sampledActions (2 ^ 32 - 1)) stream ∧
      ∃ frame snapshot, stream.frames = [(frame, snapshot)] ∧
        frame.entries = [(0, some 1), (0, some 2)] ∧ ¬ snapshot.Matches (clientSlots [frame]) := by
  obtain ⟨stream, hrun, hframes⟩ := sampled_run (2 ^ 32 - 1)
  refine ⟨twoItems_created, stream, hrun, _, _, hframes, rfl, fun hmatches => ?_⟩
  have hslot := hmatches.1 (⟨0, itemX, .float⟩, some 1) List.mem_cons_self
  have hclient : clientSlots [exchangedFrame (2 ^ 32 - 1)] 0 = some (some 2) := rfl
  cases hclient.symm.trans hslot

end HalValueStream

end LinuxcncCtrl
