import LinuxcncCtrl.Lib.Counting
import LinuxcncCtrl.Spec.NmlCompletion

/-! NML completion tracking: every command is finished once, and only by an observation made after it
was tracked. -/

namespace LinuxcncCtrl

open Lib

/-- A serial is after another one when it is ahead by 1, …, 2³¹ - 1 modulo 2³². -/
theorem nmlSerialAfter_iff (lhs rhs : Int32) : nmlSerialAfter lhs rhs = true ↔
      ∃ ahead : ℕ, 1 ≤ ahead ∧ ahead ≤ 2 ^ 31 - 1 ∧
        (rhs.toUInt32.toNat + ahead) % 2 ^ 32 = lhs.toUInt32.toNat := by
  have hlhs := lhs.toUInt32.toNat_lt
  have hrhs := rhs.toUInt32.toNat_lt
  have hsign : 0 < (lhs.toUInt32 - rhs.toUInt32).toInt32 ↔
      0 < (lhs.toUInt32 - rhs.toUInt32).toBitVec.toInt := Int32.lt_iff_toInt_lt
  have hsub : (lhs.toUInt32 - rhs.toUInt32).toBitVec.toNat =
      (2 ^ 32 - rhs.toUInt32.toNat + lhs.toUInt32.toNat) % 2 ^ 32 := UInt32.toNat_sub _ _
  unfold nmlSerialAfter
  rw [decide_eq_true_iff, hsign, BitVec.toInt_eq_toNat_cond, hsub]
  constructor
  · intro hpositive
    refine ⟨(2 ^ 32 - rhs.toUInt32.toNat + lhs.toUInt32.toNat) % 2 ^ 32, ?_, ?_, ?_⟩
    · split_ifs at hpositive <;> omega
    · split_ifs at hpositive <;> omega
    · omega
  · rintro ⟨ahead, hone, hbound, hahead⟩
    split_ifs <;> omega

/-- The observation completes a command with this serial. -/
def NmlCommandEcho.Completes (echo : NmlCommandEcho) (serial : Int32) : Prop :=
  echo.echoSerialNumber = serial ∧ echo.rcsStatus = .done ∨
    ∃ ahead : ℕ, 1 ≤ ahead ∧ ahead ≤ 2 ^ 31 - 1 ∧
      (serial.toUInt32.toNat + ahead) % 2 ^ 32 = echo.echoSerialNumber.toUInt32.toNat

def NmlCommandEcho.Rejects (echo : NmlCommandEcho) (serial : Int32) : Prop :=
  echo.echoSerialNumber = serial ∧ echo.rcsStatus = .error

theorem PendingCommand.expired_cases (pending : PendingCommand) (now : ℤ) :
    pending.expired now = .timedOut ∨ pending.expired now = .pending := by
  unfold expired
  split_ifs
  · exact .inl rfl
  · exact .inr rfl

/-- What a resolution says of the snapshot it was made from. -/
theorem PendingCommand.resolve_cases (pending : PendingCommand) (snapshot : NmlCommandEcho) (now : ℤ)
    (observationSequence : ℕ) :
    (pending.resolve snapshot now observationSequence = .completed →
      pending.afterObservation < observationSequence ∧ snapshot.Completes pending.serial) ∧
    (pending.resolve snapshot now observationSequence = .rejected →
      pending.afterObservation < observationSequence ∧ snapshot.Rejects pending.serial) ∧
    pending.resolve snapshot now observationSequence ≠ .unavailable := by
  have hexpired : ∀ resolution : CompletionResolution, resolution ≠ .timedOut →
      resolution ≠ .pending → pending.expired now ≠ resolution := by
    intro resolution htimedOut hpending heq
    rcases pending.expired_cases now with hcase | hcase
    · exact htimedOut (heq.symm.trans hcase)
    · exact hpending (heq.symm.trans hcase)
  unfold PendingCommand.resolve
  split_ifs with hold hafter hequal hdone herror
  · exact ⟨fun h => absurd h (hexpired _ nofun nofun), fun h => absurd h (hexpired _ nofun nofun),
      hexpired _ nofun nofun⟩
  · exact ⟨fun _ => ⟨Nat.lt_of_not_le hold, .inr ((nmlSerialAfter_iff _ _).mp hafter)⟩, nofun, nofun⟩
  · exact ⟨fun _ => ⟨Nat.lt_of_not_le hold, .inl ⟨hequal, hdone⟩⟩, nofun, nofun⟩
  · exact ⟨nofun, fun _ => ⟨Nat.lt_of_not_le hold, hequal, herror⟩, nofun⟩
  · exact ⟨fun h => absurd h (hexpired _ nofun nofun), fun h => absurd h (hexpired _ nofun nofun),
      hexpired _ nofun nofun⟩
  · exact ⟨fun h => absurd h (hexpired _ nofun nofun), fun h => absurd h (hexpired _ nofun nofun),
      hexpired _ nofun nofun⟩

namespace CommandCompletionTracker

variable {tracker tracker' : CommandCompletionTracker}

/-- An observation made after the command was tracked. -/
def ObservedSince (tracker : CommandCompletionTracker) (command : ℕ)
    (holds : NmlCommandEcho → Int32 → Prop) : Prop :=
  ∃ (tracked : TrackedCommand) (index : ℕ) (echo : NmlCommandEcho),
    tracker.tracked[command]? = some tracked ∧ tracked.after ≤ index ∧
      tracker.observations[index]? = some echo ∧ holds echo tracked.serial

/-- The resolution is one that the observations justify. -/
def Justified (tracker : CommandCompletionTracker) (command : ℕ)
    (resolution : CompletionResolution) : Prop :=
  resolution ≠ .pending ∧
  (resolution = .completed → tracker.ObservedSince command NmlCommandEcho.Completes) ∧
  (resolution = .rejected → tracker.ObservedSince command NmlCommandEcho.Rejects)

def waiting (tracker : CommandCompletionTracker) : List ℕ :=
  tracker.pending.map PendingCommand.command

def toFinish (tracker : CommandCompletionTracker) : List ℕ :=
  tracker.finishing.flatMap (List.map fun item => item.1.command)

structure Inv (tracker : CommandCompletionTracker) : Prop where
  sequence : tracker.observationSequence = tracker.observations.length
  latest : tracker.observations ≠ [] → tracker.observations.getLast? = some tracker.latest
  known : ∀ pending ∈ tracker.pending,
    tracker.tracked[pending.command]? = some ⟨pending.serial, pending.afterObservation⟩
  placed : ∀ id, tracker.waiting.count id + tracker.toFinish.count id +
    (tracker.reports.map Prod.fst).count id = if id < tracker.tracked.length then 1 else 0
  finishing : ∀ batch ∈ tracker.finishing, ∀ item ∈ batch,
    tracker.Justified item.1.command item.2
  reports : ∀ report ∈ tracker.reports, ∃ resolution, tracker.Justified report.1 resolution ∧
    resolution.finish = some report.2
  down : tracker.channelHealthy = false → tracker.pending = []

variable {resolution : CompletionResolution} {action : CompletionAction}

/-- What is justified stays so as calls are added. -/
theorem Justified.grown {command : ℕ}
    (h : tracker.Justified command resolution) (htracked : tracker.tracked <+: tracker'.tracked)
    (hobservations : tracker.observations <+: tracker'.observations) :
    tracker'.Justified command resolution := by
  have hsince : ∀ holds, tracker.ObservedSince command holds → tracker'.ObservedSince command holds := by
    rintro holds ⟨tracked, index, echo, hcommand, hafter, hecho, hholds⟩
    obtain ⟨laterTracked, htracked⟩ := htracked
    obtain ⟨laterObservations, hobservations⟩ := hobservations
    refine ⟨tracked, index, echo, ?_, hafter, ?_, hholds⟩
    · rw [← htracked, List.getElem?_append_left (List.getElem?_eq_some_iff.mp hcommand).1, hcommand]
    · rw [← hobservations, List.getElem?_append_left (List.getElem?_eq_some_iff.mp hecho).1, hecho]
  obtain ⟨hresolved, hcompleted, hrejected⟩ := h
  exact ⟨hresolved, fun heq => hsince _ (hcompleted heq), fun heq => hsince _ (hrejected heq)⟩

section

variable (h : tracker.Inv)

include h

theorem Inv.collectReady (now : ℤ) : (tracker.collectReady now).Inv := by
  have hlast : ∀ pending ∈ tracker.pending, ∀ holds : NmlCommandEcho → Int32 → Prop,
      pending.afterObservation < tracker.observationSequence →
      holds tracker.latest pending.serial → tracker.ObservedSince pending.command holds := by
    intro pending hpending holds hafter hholds
    rw [h.sequence] at hafter
    have hnonempty : tracker.observations ≠ [] := by
      rintro hnil
      rw [hnil] at hafter
      exact absurd hafter (Nat.not_lt_zero _)
    have hlatest := h.latest hnonempty
    rw [List.getLast?_eq_getElem?] at hlatest
    exact ⟨_, _, _, h.known pending hpending, by dsimp only; omega, hlatest, hholds⟩
  refine ⟨h.sequence, h.latest, ?_, fun id => ?_, ?_, h.reports, fun hdown => ?_⟩
  · intro pending hpending
    exact h.known pending (List.mem_of_mem_filter hpending)
  · have hplaced := h.placed id
    have hsplit := ((List.filter_append_perm
      (fun pending : PendingCommand => decide (tracker.resolve now pending ≠ .pending))
      tracker.pending).map PendingCommand.command).count_eq id
    unfold waiting toFinish at hplaced ⊢
    unfold CommandCompletionTracker.collectReady
    rw [List.flatMap_append, List.flatMap_singleton, List.count_append, List.map_map]
    rw [List.map_append, List.count_append] at hsplit
    simp only [decide_not, Bool.not_not] at hsplit ⊢
    change _ + (_ + (List.map PendingCommand.command _).count id) + _ = _
    omega
  · intro batch hbatch item hitem
    rcases List.mem_append.mp hbatch with hbefore | hnew
    · exact h.finishing batch hbefore item hitem
    · rw [List.mem_singleton.mp hnew] at hitem
      obtain ⟨pending, hready, rfl⟩ := List.mem_map.mp hitem
      obtain ⟨hpending, hresolved⟩ := List.mem_filter.mp hready
      obtain ⟨hcompleted, hrejected, -⟩ :=
        pending.resolve_cases tracker.latest now tracker.observationSequence
      refine ⟨of_decide_eq_true hresolved, fun heq => ?_, fun heq => ?_⟩
      · exact hlast pending hpending _ (hcompleted heq).1 (hcompleted heq).2
      · exact hlast pending hpending _ (hrejected heq).1 (hrejected heq).2
  · have hnil := h.down hdown
    unfold CommandCompletionTracker.collectReady
    rw [hnil]
    rfl

theorem Inv.observe (snapshot : NmlCommandEcho) (now : ℤ) : (tracker.observe snapshot now).Inv := by
  have hobserved : Inv { tracker with
      latest := snapshot
      haveSnapshot := true
      channelHealthy := true
      observedAt := now
      observationSequence := tracker.observationSequence + 1
      observations := tracker.observations ++ [snapshot] } := by
    refine ⟨?_, fun _ => List.getLast?_concat, h.known, h.placed, ?_, ?_, nofun⟩
    · rw [List.length_append, h.sequence]
      rfl
    · intro batch hbatch item hitem
      exact (h.finishing batch hbatch item hitem).grown (List.prefix_refl _) (List.prefix_append _ _)
    · intro report hreport
      obtain ⟨resolution, hjustified, hfinish⟩ := h.reports report hreport
      exact ⟨resolution, hjustified.grown (List.prefix_refl _) (List.prefix_append _ _), hfinish⟩
  exact hobserved.collectReady now

theorem Inv.channelFailed : tracker.channelFailed.Inv := by
  refine ⟨h.sequence, h.latest, nofun, fun id => ?_, ?_, h.reports, fun _ => rfl⟩
  · have hplaced := h.placed id
    unfold waiting toFinish at hplaced ⊢
    unfold CommandCompletionTracker.channelFailed
    dsimp only
    rw [List.flatMap_append, List.flatMap_singleton, List.count_append, List.map_map, List.map_nil,
      List.count_nil]
    change 0 + (_ + (List.map PendingCommand.command _).count id) + _ = _
    omega
  · intro batch hbatch item hitem
    rcases List.mem_append.mp hbatch with hbefore | hnew
    · exact h.finishing batch hbefore item hitem
    · rw [List.mem_singleton.mp hnew] at hitem
      obtain ⟨pending, -, rfl⟩ := List.mem_map.mp hitem
      exact ⟨nofun, nofun, nofun⟩

/-- A command is tracked: it waits, or the thread that tracks it takes it out at once. -/
theorem Inv.placeTracked (serial : Int32) (deadline : Option ℤ) : let pending : PendingCommand :=
      ⟨tracker.tracked.length, serial, deadline, tracker.observationSequence⟩
    let tracked := tracker.tracked ++ [⟨serial, tracker.observations.length⟩]
    (tracker.channelHealthy = true →
      Inv { tracker with tracked, pending := tracker.pending ++ [pending] }) ∧
    ∀ resolution, resolution ≠ .pending → resolution ≠ .completed → resolution ≠ .rejected →
      Inv { tracker with tracked, finishing := tracker.finishing ++ [[(pending, resolution)]] } := by
  intro pending tracked
  have hgrown : ∀ command resolution, tracker.Justified command resolution →
      Justified { tracker with tracked } command resolution := fun _ _ hjustified =>
    hjustified.grown (List.prefix_append _ _) (List.prefix_refl _)
  have hknown : ∀ waiting ∈ tracker.pending,
      tracked[waiting.command]? = some ⟨waiting.serial, waiting.afterObservation⟩ := by
    intro waiting hwaiting
    have hold := h.known waiting hwaiting
    rw [List.getElem?_append_left (List.getElem?_eq_some_iff.mp hold).1, hold]
  have hreports : ∀ report ∈ tracker.reports, ∃ resolution,
      Justified { tracker with tracked } report.1 resolution ∧ resolution.finish = some report.2 := by
    intro report hreport
    obtain ⟨resolution, hjustified, hfinish⟩ := h.reports report hreport
    exact ⟨resolution, hgrown _ _ hjustified, hfinish⟩
  have hlength : tracked.length = tracker.tracked.length + 1 := List.length_append
  refine ⟨fun hhealthy => ?_, fun resolution hresolved hcompleted hrejected => ?_⟩
  · refine ⟨h.sequence, h.latest, ?_, fun id => ?_, ?_, hreports, fun hdown => ?_⟩
    · intro waiting hwaiting
      rcases List.mem_append.mp hwaiting with hold | hnew
      · exact hknown waiting hold
      · rw [List.mem_singleton.mp hnew]
        refine List.getElem?_concat_length.trans ?_
        rw [← h.sequence]
    · have hplaced := h.placed id
      unfold waiting toFinish at hplaced ⊢
      dsimp only
      rw [List.map_append, List.count_append, hlength, count_succ]
      change _ + [tracker.tracked.length].count id + _ + _ = _
      omega
    · intro batch hbatch item hitem
      exact hgrown _ _ (h.finishing batch hbatch item hitem)
    · cases hhealthy.symm.trans hdown
  · refine ⟨h.sequence, h.latest, hknown, fun id => ?_, ?_, hreports, h.down⟩
    · have hplaced := h.placed id
      unfold waiting toFinish at hplaced ⊢
      dsimp only
      rw [List.flatMap_append, List.flatMap_singleton, List.count_append, hlength, count_succ]
      change _ + (_ + [tracker.tracked.length].count id) + _ = _
      omega
    · intro batch hbatch item hitem
      rcases List.mem_append.mp hbatch with hbefore | hnew
      · exact hgrown _ _ (h.finishing batch hbefore item hitem)
      · rw [List.mem_singleton.mp hnew, List.mem_singleton] at hitem
        rw [hitem]
        exact ⟨hresolved, fun heq => absurd heq hcompleted, fun heq => absurd heq hrejected⟩

theorem Inv.track (serial : Int32) (entered now : ℤ) : (tracker.track serial entered now).Inv := by
  -- no observation has been made since this call, so the last one cannot settle the command
  have hlast : ∀ deadline, ∀ resolution,
      tracker.resolve now ⟨tracker.tracked.length, serial, deadline, tracker.observationSequence⟩ =
        resolution → resolution ≠ .completed ∧ resolution ≠ .rejected := by
    rintro deadline resolution rfl
    obtain ⟨hcompleted, hrejected, -⟩ := PendingCommand.resolve_cases
      ⟨tracker.tracked.length, serial, deadline, tracker.observationSequence⟩ tracker.latest now
      tracker.observationSequence
    exact ⟨fun heq => absurd (hcompleted heq).1 (lt_irrefl _),
      fun heq => absurd (hrejected heq).1 (lt_irrefl _)⟩
  unfold CommandCompletionTracker.track
  generalize (if tracker.timeout = 0 then none else some (entered + tracker.timeout)) = deadline
  obtain ⟨hwaits, htaken⟩ := h.placeTracked serial deadline
  dsimp only
  by_cases hdown : tracker.channelHealthy = false
  · rw [if_pos hdown, if_neg nofun]
    exact htaken _ nofun nofun nofun
  · rw [if_neg hdown]
    by_cases hsnapshot : tracker.haveSnapshot = true
    · rw [if_pos hsnapshot]
      split_ifs with hpending
      · exact hwaits (eq_true_of_ne_false hdown)
      · exact htaken _ hpending (hlast _ _ rfl).1 (hlast _ _ rfl).2
    · rw [if_neg hsnapshot, if_pos rfl]
      exact hwaits (eq_true_of_ne_false hdown)

theorem Inv.finish {index : ℕ} {pending : PendingCommand} {rest : List (PendingCommand × CompletionResolution)}
    (hbatch : tracker.finishing[index]? = some ((pending, resolution) :: rest)) :
    Inv { tracker with
      finishing := tracker.finishing.set index rest
      reports := tracker.reports ++
        (resolution.finish.map fun report => (pending.command, report)).toList } := by
  have hmem := List.mem_of_getElem? hbatch
  have hjustified := h.finishing _ hmem _ (List.mem_cons_self ..)
  obtain ⟨report, hfinish⟩ : ∃ report, resolution.finish = some report := by
    cases resolution with
    | pending => exact absurd rfl hjustified.1
    | completed => exact ⟨_, rfl⟩
    | rejected => exact ⟨_, rfl⟩
    | timedOut => exact ⟨_, rfl⟩
    | unavailable => exact ⟨_, rfl⟩
  rw [hfinish]
  refine ⟨h.sequence, h.latest, h.known, fun id => ?_, ?_, ?_, h.down⟩
  · have hplaced := h.placed id
    have htaken := count_flatMap_set
      (List.map fun item : PendingCommand × CompletionResolution => item.1.command) hbatch rest id
    unfold waiting toFinish at hplaced ⊢
    rw [List.map_cons, List.count_cons] at htaken
    dsimp only [Option.map_some, Option.toList_some] at htaken ⊢
    rw [List.map_append, List.count_append, List.map_singleton, List.count_cons, List.count_nil]
    dsimp only
    omega
  · intro batch hmem' item hitem
    rcases List.mem_or_eq_of_mem_set hmem' with hbefore | rfl
    · exact h.finishing batch hbefore item hitem
    · exact h.finishing _ hmem item (List.mem_cons_of_mem _ hitem)
  · intro report' hreport
    rcases List.mem_append.mp hreport with hbefore | hnew
    · exact h.reports report' hbefore
    · rw [List.mem_singleton.mp hnew]
      exact ⟨resolution, hjustified, hfinish⟩

theorem Inv.step (hstep : tracker.step action = some tracker') : tracker'.Inv := by
  cases action with
  | track serial entered now =>
    cases hstep
    exact h.track serial entered now
  | observe snapshot now =>
    cases hstep
    exact h.observe snapshot now
  | tick now =>
    cases hstep
    exact h.collectReady now
  | channelFailed =>
    cases hstep
    exact h.channelFailed
  | finish index =>
    dsimp only [CommandCompletionTracker.step] at hstep
    split at hstep
    · next pending resolution rest hbatch =>
      cases hstep
      exact h.finish hbatch
    · cases hstep

end

theorem inv_initial (timeout : ℤ) : Inv { timeout } :=
  ⟨rfl, fun h => absurd rfl h, nofun, fun _ => rfl, nofun, nofun, fun _ => rfl⟩

theorem inv_run {timeout : ℤ} {actions : List CompletionAction}
    (hrun : Run step { timeout } actions tracker) : tracker.Inv :=
  Run.invariant (inv_initial timeout) (fun _ _ _ hstep h => h.step hstep) hrun

/-- Only an observation makes the channel healthy again. -/
theorem step_down (hobserves : action.observes = false)
    (hstep : tracker.step action = some tracker') (hdown : tracker.channelHealthy = false) :
    tracker'.channelHealthy = false := by
  cases action with
  | observe snapshot now => exact absurd hobserves nofun
  | track serial entered now =>
    cases hstep
    unfold CommandCompletionTracker.track
    split_ifs <;> exact hdown
  | tick now =>
    cases hstep
    exact hdown
  | channelFailed =>
    cases hstep
    rfl
  | finish index =>
    dsimp only [CommandCompletionTracker.step] at hstep
    split at hstep
    · cases hstep
      exact hdown
    · cases hstep

/-- In every run every tracked command is in one place, waiting, taken out or reported, so no callback
comes twice; a completed or rejected command was so by an observation made after it was tracked; and
once the channel has failed nothing waits until the next observation. -/
theorem completions_exactlyOnce {timeout : ℤ} {actions : List CompletionAction}
    (hrun : Run step { timeout } actions tracker) :
    (∀ command, tracker.waiting.count command + tracker.toFinish.count command +
      (tracker.reports.map Prod.fst).count command =
        if command < tracker.tracked.length then 1 else 0) ∧
    (∀ command, (command, .completed) ∈ tracker.reports →
      tracker.ObservedSince command NmlCommandEcho.Completes) ∧
    (∀ command, (command, .failed "LinuxCNC rejected the command") ∈ tracker.reports →
      tracker.ObservedSince command NmlCommandEcho.Rejects) ∧
    (∀ later tracker', RunWhere step (fun _ action => action.observes = false)
        tracker.channelFailed later tracker' → tracker'.pending = []) := by
  have hinv := inv_run hrun
  refine ⟨hinv.placed, fun command hreport => ?_, fun command hreport => ?_, ?_⟩
  · obtain ⟨resolution, ⟨-, hcompleted, -⟩, hfinish⟩ := hinv.reports _ hreport
    cases resolution with
    | completed => exact hcompleted rfl
    | pending | rejected | timedOut | unavailable => exact absurd hfinish nofun
  · obtain ⟨resolution, ⟨-, -, hrejected⟩, hfinish⟩ := hinv.reports _ hreport
    cases resolution with
    | rejected => exact hrejected rfl
    | timedOut | unavailable => exact absurd hfinish (by dsimp only; decide)
    | pending | completed => exact absurd hfinish nofun
  · intro later tracker' hlater
    have hdown : tracker'.Inv ∧ tracker'.channelHealthy = false := by
      refine hlater.invariant (P := fun tracker => tracker.Inv ∧ tracker.channelHealthy = false)
        ⟨hinv.channelFailed, rfl⟩ ?_
      intro _ _ _ hobserves hstep h
      exact ⟨h.1.step hstep, step_down hobserves hstep h.2⟩
    exact hdown.1.down hdown.2

/-! The serial wraps: a command with the largest serial is completed by the echo of the next one, which
is rejected; a third one is tracked after the channel has failed. -/

def wrappedActions : List CompletionAction :=
  [.observe ⟨2147483646, .done⟩ 0, .track 2147483647 1 1, .track (-2147483648) 1 1,
    .observe ⟨-2147483648, .error⟩ 2, .finish 1, .finish 1, .channelFailed, .track 5 3 3]

def wrapped : CommandCompletionTracker :=
  (exec step { timeout := 10 } wrappedActions).getD { timeout := 10 }

theorem wrapped_run : Run step { timeout := 10 } wrappedActions wrapped :=
  .of_exec rfl

theorem completions_exactlyOnce_wrapped :
    wrapped.reports = [(0, .completed), (1, .failed "LinuxCNC rejected the command")] ∧
      wrapped.toFinish = [2] ∧ wrapped.pending = [] ∧
      wrapped.ObservedSince 0 NmlCommandEcho.Completes :=
  have hreports : wrapped.reports =
      [(0, .completed), (1, .failed "LinuxCNC rejected the command")] := by decide +kernel
  ⟨hreports, by decide +kernel, rfl,
    (completions_exactlyOnce wrapped_run).2.1 0 (hreports ▸ List.mem_cons_self ..)⟩

end CommandCompletionTracker

/-- The delay doubles with each failure, to five seconds at most. -/
structure OwnedChannel.Backoff (channel : OwnedChannel) : Prop where
  delay : channel.delay = min (100 * 2 ^ channel.failures) 5000
  next : ∀ n, channel.failures = n + 1 →
    channel.nextAttempt = channel.failedAt + 1000000 * min (100 * 2 ^ n) 5000

theorem OwnedChannel.Backoff.failed {channel : OwnedChannel} (h : channel.Backoff) (now : ℕ) :
    (channel.failed now).Backoff where
  delay := by
    simp only [OwnedChannel.failed, h.delay, pow_succ]
    omega
  next n hn := by
    cases hn
    rw [OwnedChannel.failed, h.delay]

theorem OwnedChannel.Backoff.get {channel : OwnedChannel} (h : channel.Backoff) (now failedAt : ℕ) (made : Bool) :
    (channel.get now failedAt made).Backoff := by
  unfold OwnedChannel.get
  split_ifs
  · exact h
  · exact ⟨rfl, fun _ hn => by simp at hn⟩
  · exact h.failed failedAt

namespace NmlStatusChannel

open CommandCompletionTracker

variable {s s' : NmlStatusChannel} {a : Action}

theorem polled_spec {channel : OwnedChannel} (h : channel.Backoff) (failedAt : ℕ) (peek : StatusPeek)
    (resolvedAt : ℤ) : (polled channel failedAt peek resolvedAt).1.Backoff ∧
      ((polled channel failedAt peek resolvedAt).1.valid = true ∨
        (polled channel failedAt peek resolvedAt).2 = .channelFailed) := by
  unfold polled
  split
  next hvalid =>
    cases peek with
    | lost => exact ⟨h.failed failedAt, .inr rfl⟩
    | other | status => exact ⟨h, .inl hvalid⟩
  · exact ⟨h, .inr rfl⟩

/-- A channel that is healthy for the tracker is valid. -/
structure Watched (s : NmlStatusChannel) : Prop where
  tracker : s.tracker.Inv
  healthy : s.tracker.channelHealthy = true → s.channel.valid = true
  backoff : s.channel.Backoff

theorem Watched.step (hstep : s.step a = some s') (h : s.Watched) : s'.Watched := by
  cases a with
  | pollStatus now failedAt made peek resolvedAt =>
    obtain ⟨tracker, htracker, rfl⟩ := Option.map_eq_some_iff.mp hstep
    obtain ⟨hbackoff, hcall⟩ := polled_spec (h.backoff.get now failedAt made) failedAt peek resolvedAt
    refine ⟨h.tracker.step htracker, fun hhealthy => hcall.resolve_right fun hfailed => ?_, hbackoff⟩
    rw [hfailed] at htracker
    cases htracker
    cases hhealthy
  | command action =>
    obtain ⟨hobserves, hstep⟩ := Option.ite_none_left_eq_some.mp hstep
    obtain ⟨tracker, htracker, rfl⟩ := Option.map_eq_some_iff.mp hstep
    refine ⟨h.tracker.step htracker, fun hhealthy => h.healthy (by_contra fun hdown => ?_), h.backoff⟩
    simp [step_down (by simpa using hobserves) htracker (by simpa using hdown)] at hhealthy

/-- While there is no valid channel, no command is pending; after n + 1 failures in a row the next attempt is made
100·2ⁿ milliseconds after the last one, or five seconds. -/
theorem closed_channel {timeout : ℤ} {actions : List Action} (hrun : Run step { tracker := { timeout } } actions s)
    (hclosed : s.channel.valid = false) :
    s.tracker.pending = [] ∧ ∀ n, s.channel.failures = n + 1 → ∀ now, s.channel.attempts now = true ↔
      s.channel.failedAt + 1000000 * min (100 * 2 ^ n) 5000 ≤ now := by
  have h : s.Watched := by
    apply hrun.invariant
    · exact ⟨inv_initial timeout, by simp, rfl, fun _ hn => by simp at hn⟩
    · intro s a s' hstep h
      exact h.step hstep
  refine ⟨h.tracker.down (by simpa [hclosed] using h.healthy), fun n hn now => ?_⟩
  simp [OwnedChannel.attempts, hclosed, h.backoff.next n hn]

/-- A command is tracked, the channel is lost, and the next one is not valid. -/
def lost : NmlStatusChannel :=
  (exec step { tracker := { timeout := 10 } } [.pollStatus 0 0 true (.status {}) 0, .command (.track 5 1 1),
    .pollStatus 1 1 true .lost 1, .pollStatus 100000001 100000002 false .other 2]).getD
      { tracker := { timeout := 10 } }

theorem closed_channel_lost : lost.tracker.pending = [] ∧ lost.channel.attempts 300000001 = false :=
  have h := closed_channel (s := lost) (.getD_exec (by decide +kernel)) rfl
  ⟨h.1, by simpa using (h.2 1 rfl 300000001).not.mpr (by decide)⟩

end NmlStatusChannel

end LinuxcncCtrl
