import LinuxcncCtrl.Sanity.ScopeRoll

/-! Roll-mode deltas put together. A poll interval in which the window grows and moves is counted short; in
every other run the consumer holds the window after each poll. -/

namespace LinuxcncCtrl

open Lib

/-- The cell of a channel within a sample. -/
def ScopeShm.packedChannel {F : Type} (shm : ScopeShm F) (index : ℕ) : ℕ :=
  (shm.channels.take index).countP fun channel => channel.dataLen ≠ 0

theorem ScopeShm.packedChannel_lt {F : Type} {shm : ScopeShm F} {index : ℕ} {channel : ScopeShmChannel}
    (hlength : shm.channels.length = kScopeChannelCount)
    (hchannel : shm.channels[index]? = some channel) : shm.packedChannel index < 16 := by
  have hindex := (List.getElem?_eq_some_iff.mp hchannel).1
  have hle := (List.countP_le_length (l := shm.channels.take index)
    (p := fun channel => channel.dataLen ≠ 0))
  rw [List.length_take] at hle
  rw [hlength, kScopeChannelCount] at hindex
  unfold packedChannel
  omega

variable {F : Type} [Zero F] [One F] [NatCast F] [IntCast F]

/-- The consumer has, for every enabled channel, its values of these samples. -/
def ScopeConsumer.Holds (consumer : ScopeConsumer F) (shm : ScopeShm F)
    (held : List (ℕ → ScopeData F)) : Prop :=
  ∀ (index : ℕ) (channel : ScopeShmChannel), shm.channels[index]? = some channel → channel.dataLen ≠ 0 →
    consumer index = held.map fun sample =>
      sampleValue (sample (shm.packedChannel index)) channel.dataType

namespace ScopeRoll

variable {controller : ScopeController F} {consumer : ScopeConsumer F}
  {captured recLen start samples : ℕ} {before since : List (ℕ → ScopeData F)}

/-- The samples of the roll, up to the last poll and since, in the ring and with the consumer. -/
structure Tracks (controller : ScopeController F) (consumer : ScopeConsumer F)
    (captured recLen start samples : ℕ) (before since : List (ℕ → ScopeData F)) : Prop where
  rolling : controller.Rolling
  rolls : controller.shm.Rolls recLen start samples (before ++ since)
  since_length : since.length = captured
  paced : captured < recLen
  fresh : controller.deltaInitialized = false →
    before = [] ∧ samples = captured ∧ controller.deltaSequence = 0 ∧ consumer = fun _ => []
  noted : controller.deltaInitialized = true → ∃ lastStart lastSamples,
    controller.Noted recLen start samples lastStart lastSamples captured ∧ 0 < lastSamples ∧
      lastSamples ≤ before.length ∧ consumer.Holds controller.shm (newest lastSamples before)

section

variable (h : Tracks controller consumer captured recLen start samples before since)

include h

theorem Tracks.capture (hpaced : captured + 1 < recLen) (sample : ℕ → ScopeData F) :
    ∃ start' samples', Tracks { controller with shm := controller.shm.capture sample } consumer
      (captured + 1) recLen start' samples' before (since ++ [sample]) := by
  have hlength : (since ++ [sample]).length = captured + 1 := by
    rw [List.length_append, List.length_singleton, h.since_length]
  have hchannels : (controller.shm.capture sample).channels = controller.shm.channels := by
    unfold ScopeShm.capture
    split_ifs <;> rfl
  have hrolling : ({ controller with shm := controller.shm.capture sample } : ScopeController F).Rolling :=
    { h.rolling with channels := (congrArg List.length hchannels).trans h.rolling.channels }
  have hholds : ∀ held, consumer.Holds controller.shm held →
      consumer.Holds (controller.shm.capture sample) held := by
    intro held hheld index channel hchannel henabled
    unfold ScopeShm.packedChannel
    rw [hchannels] at hchannel ⊢
    exact hheld index channel hchannel henabled
  by_cases hgrow : samples < recLen - 1
  · have hrolls := h.rolls.capture_grow hgrow sample
    rw [List.append_assoc] at hrolls
    refine ⟨start, samples + 1, hrolling, hrolls, hlength, hpaced, fun hfresh => ?_, fun hinit => ?_⟩
    · obtain ⟨hbefore, hsamples, hsequence, hconsumer⟩ := h.fresh hfresh
      exact ⟨hbefore, congrArg Nat.succ hsamples, hsequence, hconsumer⟩
    · obtain ⟨lastStart, lastSamples, hn, hpositive, hkept, hheld⟩ := h.noted hinit
      have hgrown := hn.grown
      have hmoved := hn.moved
      refine ⟨lastStart, lastSamples, { hn with grown := by omega, moved := ?_ }, hpositive, hkept, hholds _ hheld⟩
      rw [hmoved]
      congr 3
      omega
  · have hfull : samples = recLen - 1 := by
      have hle := h.rolls.samples_le
      omega
    have hrolls := h.rolls.capture_move hfull sample
    rw [List.append_assoc] at hrolls
    refine ⟨_, samples, hrolling, hrolls, hlength, hpaced, fun hfresh => ?_, fun hinit => ?_⟩
    · obtain ⟨-, hsamples, -⟩ := h.fresh hfresh
      omega
    · obtain ⟨lastStart, lastSamples, hn, hpositive, hkept, hheld⟩ := h.noted hinit
      have hgrown := hn.grown
      refine ⟨lastStart, lastSamples, { hn with grown := by omega, moved := ?_ }, hpositive, hkept, hholds _ hheld⟩
      rw [hn.moved, Nat.mod_add_mod]
      congr 1
      omega

theorem Tracks.touched {controller' : ScopeController F} (htouched : controller.Touched controller') :
    Tracks controller' consumer captured recLen start samples before since := by
  refine ⟨htouched.rolling h.rolling, htouched.rolls h.rolls, h.since_length, h.paced, ?_, ?_⟩
  · obtain ⟨_, _, _, _, rfl⟩ := htouched
    exact h.fresh
  · obtain ⟨_, _, _, _, rfl⟩ := htouched
    intro hinit
    obtain ⟨lastStart, lastSamples, hn, hrest⟩ := h.noted hinit
    exact ⟨lastStart, lastSamples, { hn with }, hrest⟩

theorem Tracks.polled (hsamples : 0 < samples) (now : ℤ) (sequence : ℕ) {consumer' : ScopeConsumer F}
    (hholds : consumer'.Holds controller.shm (newest samples (before ++ since))) :
    Tracks (controller.noted now sequence) consumer' 0 recLen start samples (before ++ since) [] := by
  have hle := h.rolls.samples_le
  have hstart := h.rolls.start_lt
  refine ⟨{ h.rolling with }, ?_, rfl, h.rolls.positive, nofun, fun _ =>
    ⟨start, samples, ⟨rfl, h.rolls.sampleLen_eq, h.rolls.start_eq, h.rolls.samples_eq, hstart, hle,
      by omega, ?_⟩, hsamples, h.rolls.kept, hholds⟩⟩
  · rw [List.append_nil]
    exact h.rolls
  · have hzero : samples + 0 - (recLen - 1) = 0 := by omega
    rw [hzero, Nat.mul_zero, Nat.add_zero, Nat.mod_eq_of_lt hstart]

end

variable {shm : ScopeShm F}

/-- The end of the window, as a delta carries it. -/
theorem holds_copy {history : List (ℕ → ScopeData F)} {count : ℕ}
    (hrolls : shm.Rolls recLen start samples history)
    (hlength : shm.channels.length = kScopeChannelCount) (hcount : count ≤ samples) :
    ScopeConsumer.Holds
      (ScopeChannelSamples.values (shm.copyChannels (shm.samples - count) count shm.channels 0)) shm
      (newest count history) := by
  intro index channel hchannel henabled
  have hvalues := ScopeShm.copyChannels_values shm (shm.samples - count) count hchannel henabled 0
  rw [Nat.zero_add] at hvalues
  refine hvalues.trans ?_
  exact hrolls.copyValues_eq hcount (ScopeShm.packedChannel_lt hlength hchannel) channel.dataType

theorem holds_append {delta : ScopeCaptureDelta F} {lastSamples : ℕ}
    (hreset : delta.reset = false) (hold : consumer.Holds shm (newest lastSamples before))
    (hadded : ScopeConsumer.Holds (ScopeChannelSamples.values delta.channels) shm since)
    (hkept : lastSamples ≤ before.length) (hcount : samples ≤ lastSamples + since.length) :
    (consumer.apply delta samples).Holds shm (newest samples (before ++ since)) := by
  intro index channel hchannel henabled
  unfold ScopeConsumer.apply
  rw [hreset, if_neg Bool.false_ne_true, hold index channel hchannel henabled,
    hadded index channel hchannel henabled, ← List.map_append, newest_map,
    newest_append_newest _ _ hcount hkept]

structure Polled (lastSequence : ℕ) (consumer : ScopeConsumer F)
    (captured recLen start samples : ℕ) (history : List (ℕ → ScopeData F))
    (delta : Option (ScopeCaptureDelta F)) (controller' : ScopeController F) : Prop where
  tracks : Tracks controller' (delta.elim consumer fun delta => consumer.apply delta samples) 0 recLen
    start samples history []
  quiet : delta = none → captured = 0 ∧ controller'.deltaSequence = lastSequence
  sequence : ∀ found, delta = some found →
    found.sequence = lastSequence + captured ∧ controller'.deltaSequence = found.sequence

def Hands (controller : ScopeController F) (consumer : ScopeConsumer F) (captured recLen start samples : ℕ)
    (history : List (ℕ → ScopeData F))
    (result : Except ScopeControllerError (Option (ScopeCaptureDelta F) × ScopeController F)) : Prop :=
  ∃ delta controller', result = .ok (delta, controller') ∧
    Polled controller.deltaSequence consumer captured recLen start samples history delta controller'

section Poll

variable {period now : ℤ} (h : Tracks controller consumer captured recLen start samples before since)

include h

theorem Tracks.poll_first (hfirst : controller.deltaInitialized = false) (hsamples : 0 < samples) (period now : ℤ) :
    Hands controller consumer captured recLen start samples (before ++ since)
      (controller.copyDeltaUnlocked period now) := by
  obtain ⟨-, hcaptured, hsequence, -⟩ := h.fresh hfirst
  have hsamples_eq := h.rolls.samples_eq
  have hcopy := ScopeController.copyDelta_eq h.rolling h.rolls hsamples period now
    (ScopeController.boundedDelta_first hfirst _)
  have hsome : controller.shm.samples ≠ 0 := by
    rw [hsamples_eq]
    exact_mod_cast hsamples.ne'
  rw [if_neg hsome] at hcopy
  refine ⟨_, _, hcopy, ⟨h.polled hsamples now _ ?_, nofun, ?_⟩⟩
  · have hheld := holds_copy h.rolls h.rolling.channels (Nat.le_refl samples)
    rw [← hsamples_eq] at hheld
    exact hheld
  · intro found hfound
    cases hfound
    refine ⟨?_, rfl⟩
    unfold ScopeController.deltaOf
    rw [if_pos rfl, hsamples_eq, Int.toNat_natCast, hsequence, hcaptured, Nat.zero_add]

theorem Tracks.poll_next (hinit : controller.deltaInitialized = true)
    (hpaced : 0 < period → now - controller.deltaSnapshotAt < controller.shm.recLen * period)
    (hphase : controller.deltaSamples = controller.shm.recLen - 1 ∨
      controller.shm.start = controller.deltaStart) :
    Hands controller consumer captured recLen start samples (before ++ since)
      (controller.copyDeltaUnlocked period now) := by
  obtain ⟨lastStart, lastSamples, hn, hpositive, hkept, hheld⟩ := h.noted hinit
  have hgrown := hn.grown
  have hle := hn.lastSamples_le
  have hrecLen := h.rolls.positive
  have hsamples : 0 < samples := by omega
  have hambiguous : controller.ambiguousWrap period now = false := by
    unfold ScopeController.ambiguousWrap
    rw [hinit, Bool.true_and, Bool.and_eq_false_iff, decide_eq_false_iff_not, decide_eq_false_iff_not]
    by_cases hperiod : 0 < period
    · exact .inr (not_le.mpr (hpaced hperiod))
    · exact .inl hperiod
  have hphase' : lastSamples = recLen - 1 ∨ start = lastStart := by
    rw [hn.deltaSamples, h.rolls.recLen_eq, h.rolls.start_eq, hn.deltaStart] at hphase
    omega
  obtain ⟨hbounded, hcount⟩ :=
    ScopeController.boundedDelta_onePhase h.rolls hn h.paced hphase'
  have hcopy := ScopeController.copyDelta_eq h.rolling h.rolls hsamples period now
    ((congrArg controller.boundedDelta hambiguous).trans hbounded)
  dsimp only at hcopy
  by_cases hzero : captured = 0
  · subst hzero
    obtain rfl := List.eq_nil_of_length_eq_zero h.since_length
    have hsame : samples = lastSamples := by omega
    rw [if_pos Nat.cast_zero] at hcopy
    refine ⟨_, _, hcopy, ⟨h.polled hsamples now _ ?_, fun _ => ⟨rfl, rfl⟩, nofun⟩⟩
    rw [List.append_nil, hsame]
    exact hheld
  · rw [if_neg (by exact_mod_cast hzero)] at hcopy
    refine ⟨_, _, hcopy, ⟨h.polled hsamples now _ ?_, nofun, ?_⟩⟩
    · have hadded := holds_copy h.rolls h.rolling.channels hcount
      have hnewest : newest captured (before ++ since) = since := by
        unfold newest
        rw [List.length_append, h.since_length, Nat.add_sub_cancel, List.drop_left]
      rw [hnewest] at hadded
      exact holds_append rfl hheld hadded hkept (by rw [h.since_length]; omega)
    · intro found hfound
      cases hfound
      refine ⟨?_, rfl⟩
      unfold ScopeController.deltaOf
      rw [if_neg Bool.false_ne_true, Int.toNat_natCast]

theorem Tracks.poll_empty (hsamples : samples = 0) (period now : ℤ) :
    Hands controller consumer captured recLen start samples (before ++ since)
      (controller.copyDeltaUnlocked period now) := by
  have hfresh : controller.deltaInitialized = false := by
    by_contra hinit
    obtain ⟨_, _, hn, hpositive, -⟩ := h.noted (Bool.eq_true_of_not_eq_false hinit)
    have hgrown := hn.grown
    have hle := hn.lastSamples_le
    omega
  obtain ⟨rfl, hcaptured, hsequence, hconsumer⟩ := h.fresh hfresh
  have hzero : captured = 0 := hcaptured.symm.trans hsamples
  have hsince := List.eq_nil_of_length_eq_zero (h.since_length.trans hzero)
  have hcopy := ScopeController.copyDelta_empty h.rolling
    (h.rolls.samples_eq.trans (by rw [hsamples, Nat.cast_zero])) period now
  refine ⟨_, _, hcopy, ⟨⟨h.rolling, ?_, rfl, h.rolls.positive, fun _ => ?_, fun hinit => ?_⟩,
    fun _ => ⟨hzero, rfl⟩, nofun⟩⟩
  · rw [List.append_nil]
    exact h.rolls
  · exact ⟨hsince, hsamples, hsequence, hconsumer⟩
  · cases hfresh.symm.trans hinit

variable (hpaced : controller.deltaInitialized = true → 0 < period →
    now - controller.deltaSnapshotAt < controller.shm.recLen * period)
  (hphase : controller.deltaInitialized = true → controller.deltaSamples = controller.shm.recLen - 1 ∨
    controller.shm.start = controller.deltaStart)

include hpaced hphase

theorem Tracks.copyDelta :
    Hands controller consumer captured recLen start samples (before ++ since)
      (controller.copyDeltaUnlocked period now) := by
  rcases Nat.eq_zero_or_pos samples with hsamples | hsamples
  · exact h.poll_empty hsamples period now
  · rcases Bool.eq_false_or_eq_true controller.deltaInitialized with hinit | hfirst
    · exact h.poll_next hinit (hpaced hinit) (hphase hinit)
    · exact h.poll_first hfirst hsamples period now

theorem Tracks.poll :
    Hands controller consumer captured recLen start samples (before ++ since)
      (controller.pollOnce period now) := by
  rw [ScopeController.pollOnce_rolling h.rolling]
  have hbeat := controller.touched_beat now
  have htracks := h.touched hbeat
  obtain ⟨watchdog, state, heartbeatAt, frames, heq⟩ := hbeat
  rw [heq] at htracks ⊢
  obtain ⟨delta, controller', hcopy, hpolled⟩ := htracks.copyDelta hpaced hphase
  obtain ⟨controller'', hroll, htouched⟩ := ScopeController.pollRoll_touched hcopy
  refine ⟨delta, controller'', congrArg Except.ok hroll, hpolled.tracks.touched htouched, ?_, ?_⟩
  · obtain ⟨_, _, _, _, rfl⟩ := htouched
    exact hpolled.quiet
  · obtain ⟨_, _, _, _, rfl⟩ := htouched
    exact hpolled.sequence

end Poll

def Inv (roll : ScopeRoll F) : Prop :=
  ∃ recLen start samples before since,
    Tracks roll.controller roll.consumer roll.captured recLen start samples before since

theorem Tracks.window (h : Tracks controller consumer 0 recLen start samples before []) :
    ∀ (index : ℕ) (channel : ScopeShmChannel), controller.shm.channels[index]? = some channel →
      channel.dataLen ≠ 0 →
      consumer index = ScopeChannelSamples.values controller.shm.window index := by
  intro index channel hchannel henabled
  have hwindow := holds_copy h.rolls h.rolling.channels (Nat.le_refl samples) index channel hchannel
    henabled
  rw [← h.rolls.samples_eq, sub_self, List.append_nil] at hwindow
  refine Eq.trans ?_ hwindow.symm
  cases hinit : controller.deltaInitialized with
  | false =>
    obtain ⟨rfl, rfl, -, rfl⟩ := h.fresh hinit
    rfl
  | true =>
    obtain ⟨lastStart, lastSamples, hn, -, -, hheld⟩ := h.noted hinit
    have hgrown := hn.grown
    have hle := hn.lastSamples_le
    have hsame : samples = lastSamples := by omega
    rw [hsame]
    exact hheld index channel hchannel henabled

variable {roll : ScopeRoll F} {roll' : ScopeRoll F}

/-- The consumer has the window, and the sequence has advanced by the number of samples captured. -/
def Complete (roll roll' : ScopeRoll F) : Prop :=
  (∀ (index : ℕ) (channel : ScopeShmChannel),
    roll'.controller.shm.channels[index]? = some channel → channel.dataLen ≠ 0 →
    roll'.consumer index = ScopeChannelSamples.values roll'.controller.shm.window index) ∧
  (roll'.deltas = roll.deltas ∧ roll.captured = 0 ∧
      roll'.controller.deltaSequence = roll.controller.deltaSequence ∨
    ∃ delta, roll'.deltas = roll.deltas ++ [delta] ∧
      delta.sequence = roll.controller.deltaSequence + roll.captured ∧
      roll'.controller.deltaSequence = delta.sequence)

theorem Inv.poll (h : roll.Inv)
    (hpaced : roll.Paced (.poll period now)) (hphase : roll.OnePhase (.poll period now))
    (hstep : roll.step (.poll period now) = some roll') :
    roll'.Inv ∧ Complete roll roll' := by
  obtain ⟨recLen, start, samples, before, since, htracks⟩ := h
  obtain ⟨delta, controller', hpoll, hpolled⟩ := htracks.poll hpaced hphase
  dsimp only [step] at hstep
  rw [hpoll] at hstep
  have hafter := hpolled.tracks
  cases delta with
  | none =>
    cases hstep
    obtain ⟨hzero, hsequence⟩ := hpolled.quiet rfl
    exact ⟨⟨_, _, _, _, _, hafter⟩, hafter.window, .inl ⟨rfl, hzero, hsequence⟩⟩
  | some delta =>
    cases hstep
    obtain ⟨hsequence, hnoted⟩ := hpolled.sequence delta rfl
    have hsamples : controller'.shm.samples.toNat = samples := by
      rw [hafter.rolls.samples_eq, Int.toNat_natCast]
    rw [hsamples]
    exact ⟨⟨_, _, _, _, _, hafter⟩, hafter.window, .inr ⟨delta, rfl, hsequence, hnoted⟩⟩

theorem Inv.step (h : roll.Inv) {action : ScopeRollAction F}
    (hpaced : roll.Paced action) (hphase : roll.OnePhase action)
    (hstep : roll.step action = some roll') : roll'.Inv := by
  cases action with
  | capture sample =>
    cases hstep
    obtain ⟨recLen, start, samples, before, since, htracks⟩ := h
    have hlt : roll.captured + 1 < recLen := by
      have hrecLen := htracks.rolls.recLen_eq
      unfold Paced at hpaced
      omega
    obtain ⟨start', samples', htracks'⟩ := htracks.capture hlt sample
    exact ⟨recLen, start', samples', before, since ++ [sample], htracks'⟩
  | poll period now => exact (h.poll hpaced hphase hstep).1

theorem Started.inv (h : roll.Started) : roll.Inv := by
  have hrecLen := h.recLen
  have hbufLen := h.bufLen
  have hsampleLen := h.sampleLen
  obtain ⟨hstart, hlt⟩ := h.start
  rw [kScopeChannelCount] at hbufLen hsampleLen
  refine ⟨roll.controller.shm.recLen.toNat, roll.controller.shm.start.toNat, 0, [], [],
    { h with },
    ⟨?_, ?_, hsampleLen, ?_, h.samples, ?_, ?_, Nat.zero_le _, Nat.zero_le _, Window.nil⟩,
    h.captured.symm, ?_, fun _ => ⟨rfl, h.captured.symm, h.deltaSequence, h.consumer⟩, fun hinit => ?_⟩
  · omega
  · omega
  · omega
  · omega
  · omega
  · rw [h.captured]
    omega
  · cases h.deltaInitialized.symm.trans hinit

/-- Roll-mode deltas lose and duplicate nothing as long as no poll interval sees the window both grow and
move: after every poll the consumer holds the window of every enabled channel, and the sequence has
advanced by the number of samples captured since the poll before. -/
theorem rollDeltas_lossless {initial roll roll' : ScopeRoll F} (hstarted : initial.Started)
    {actions : List (ScopeRollAction F)}
    (hrun : RunWhere ScopeRoll.step (fun roll action => roll.Paced action ∧ roll.OnePhase action)
      initial actions roll) {period now : ℤ} (hpaced : roll.Paced (.poll period now))
    (hphase : roll.OnePhase (.poll period now)) (hstep : roll.step (.poll period now) = some roll') :
    (∀ (index : ℕ) (channel : ScopeShmChannel),
      roll'.controller.shm.channels[index]? = some channel → channel.dataLen ≠ 0 →
      roll'.consumer index = ScopeChannelSamples.values roll'.controller.shm.window index) ∧
    (roll'.deltas = roll.deltas ∧ roll.captured = 0 ∧
        roll'.controller.deltaSequence = roll.controller.deltaSequence ∨
      ∃ delta, roll'.deltas = roll.deltas ++ [delta] ∧
        delta.sequence = roll.controller.deltaSequence + roll.captured ∧
        roll'.controller.deltaSequence = delta.sequence) := by
  have hinv : roll.Inv :=
    RunWhere.invariant hstarted.inv
      (fun _ _ _ hok hstep h => h.step hok.1 hok.2 hstep) hrun
  exact (hinv.poll hpaced hphase hstep).2

omit [Zero F] [One F] [NatCast F] [IntCast F] in
/-- `run` in roll mode starts a roll, on a ring that holds nothing yet. -/
theorem started_of_run {impl impl' : ScopeController F} {owner : ScopeOwner}
    (hrun : impl.run owner .roll = .ok impl') (hpolling : impl.polling = true)
    (hchannels : impl.shm.channels.length = kScopeChannelCount) (hrecLen : 0 < impl.shm.recLen)
    (hbufLen : impl.shm.bufLen = kScopeChannelCount * impl.shm.recLen)
    (hsampleLen : impl.shm.sampleLen = kScopeChannelCount)
    (hstart : 0 ≤ impl.shm.start ∧ impl.shm.start < impl.shm.bufLen)
    (hsamples : impl.shm.samples = 0) : Started { controller := impl' } := by
  unfold ScopeController.run ScopeController.ensureAttached ScopeController.ensureOwner at hrun
  dsimp only [bind, Except.bind] at hrun
  by_cases hattached : impl.attached = true
  · rw [if_pos hattached] at hrun
    by_cases howner : owner = [] ∨ impl.owner ≠ owner
    · rw [if_pos howner] at hrun
      cases hrun
    · rw [if_neg howner] at hrun
      obtain ⟨hsome, hsame⟩ := not_or.mp howner
      split_ifs at hrun with _ _ hroll
      · cases hrun
        exact ⟨hpolling, (Decidable.of_not_not hsame).trans_ne hsome, hattached, rfl, rfl, rfl, rfl,
          hchannels, hrecLen, hbufLen, hsampleLen, hstart, hsamples, rfl, rfl⟩
      · exact absurd rfl hroll
  · rw [if_neg hattached] at hrun
    cases hrun

instance (roll : ScopeRoll F) (action : ScopeRollAction F) : Decidable (roll.Paced action) := by
  cases action <;> dsimp only [Paced] <;> infer_instance

instance (roll : ScopeRoll F) (action : ScopeRollAction F) : Decidable (roll.OnePhase action) := by
  cases action <;> dsimp only [OnePhase] <;> infer_instance

/-! One channel, a record of four samples, one sample a millisecond. -/

def configuredScope : ScopeController ℤ :=
  { attached := true
    shm :=
      { bufLen := 64
        watchdog := 0
        recLen := 4
        sampleLen := 16
        preTrig := 0
        start := 0
        samples := 0
        state := .idle
        channels := ⟨.float, 8⟩ :: List.replicate 15 ⟨.unspecified, 0⟩
        buffer := fun _ => ⟨0, 0, 0, 0⟩ }
    polling := true
    owner := ['o']
    runMode := .single
    running := false
    configured := true
    preTrigger := 0
    frames := { owner := ['o'] }
    heartbeatPeriod := 100000000
    heartbeatAt := 0 }

def rollStarted : ScopeRoll ℤ :=
  { controller := ((configuredScope.run ['o'] .roll).toOption).getD configuredScope }

theorem rollStarted_started : rollStarted.Started := by
  have hrun : configuredScope.run ['o'] .roll = .ok rollStarted.controller := rfl
  refine started_of_run hrun rfl rfl ?_ rfl rfl ?_ rfl
  · decide
  · decide

/-- Samples with the values `first`, `first + 1`, … -/
def capturing (first count : ℕ) : List (ScopeRollAction ℤ) :=
  (List.range count).map fun index => .capture fun _ => ⟨0, 0, 0, (first + index : ℕ)⟩

/-- A poll after two samples, and `count` more. -/
def resumedActions (count : ℕ) : List (ScopeRollAction ℤ) :=
  capturing 0 2 ++ [.poll 1000000 2000000] ++ capturing 2 count

def onePhaseRoll : ScopeRoll ℤ :=
  (execWhere ScopeRoll.step (fun roll action => roll.Paced action ∧ roll.OnePhase action) rollStarted
    (resumedActions 1)).getD rollStarted

theorem onePhaseRoll_run :
    RunWhere ScopeRoll.step (fun roll action => roll.Paced action ∧ roll.OnePhase action) rollStarted
      (resumedActions 1) onePhaseRoll :=
  .getD_exec (by decide +kernel)

def polledAgain (roll : ScopeRoll ℤ) : ScopeRoll ℤ :=
  (roll.step (.poll 1000000 4000000)).getD roll

theorem rollDeltas_lossless_onePhase : (polledAgain onePhaseRoll).consumer 0 = [0, 1, 2] ∧
      (polledAgain onePhaseRoll).consumer 0 =
        ScopeChannelSamples.values (polledAgain onePhaseRoll).controller.shm.window 0 := by
  have hsome : (onePhaseRoll.step (.poll 1000000 4000000)).isSome = true := by decide +kernel
  obtain ⟨roll', hroll'⟩ := Option.isSome_iff_exists.mp hsome
  have hpolled : polledAgain onePhaseRoll = roll' := by
    unfold polledAgain
    rw [hroll', Option.getD_some]
  refine ⟨by decide +kernel, ?_⟩
  have hchannel : ((polledAgain onePhaseRoll).controller.shm.channels[0]?).map
      ScopeShmChannel.dataLen = some 8 := by decide +kernel
  rw [hpolled] at hchannel ⊢
  obtain ⟨channel, hchannel, henabled⟩ := Option.map_eq_some_iff.mp hchannel
  exact (rollDeltas_lossless rollStarted_started onePhaseRoll_run (by decide +kernel)
    (by decide +kernel) hroll').1 0 channel hchannel (henabled.trans_ne (by decide))

/-- Two samples more: the window grows by one and moves by one. -/
def straddledRoll : ScopeRoll ℤ :=
  (execWhere ScopeRoll.step ScopeRoll.Paced rollStarted (resumedActions 2)).getD rollStarted

theorem straddledRoll_run :
    RunWhere ScopeRoll.step ScopeRoll.Paced rollStarted (resumedActions 2) straddledRoll :=
  .getD_exec (by decide +kernel)

/-- The delta then has only the last sample: the consumer misses the sample before it and keeps one that
the window has given up, and the sequence advances by one for two samples. -/
theorem rollDeltas_lossy : rollStarted.Started ∧
    RunWhere ScopeRoll.step ScopeRoll.Paced rollStarted (resumedActions 2) straddledRoll ∧
    straddledRoll.Paced (.poll 1000000 4000000) ∧ straddledRoll.captured = 2 ∧
    (straddledRoll.step (.poll 1000000 4000000)).isSome = true ∧
    (polledAgain straddledRoll).consumer 0 = [0, 1, 3] ∧
    ScopeChannelSamples.values (polledAgain straddledRoll).controller.shm.window 0 = [1, 2, 3] ∧
    (polledAgain straddledRoll).controller.deltaSequence = straddledRoll.controller.deltaSequence + 1 :=
  ⟨rollStarted_started, straddledRoll_run, by decide +kernel, by decide +kernel, by decide +kernel,
    by decide +kernel, by decide +kernel, by decide +kernel⟩

end ScopeRoll

end LinuxcncCtrl
