import LinuxcncCtrl.Lib.Runs
import LinuxcncCtrl.Spec.ScopeFrameQueue

/-! The accounting of the scope frame queue. Its frontier is the generation that the next frame returned would have
if none was skipped. Publishing leaves the frontier where it is; a frame that is returned lies as far beyond it as
frames were skipped; a clear moves it to the next generation. -/

namespace LinuxcncCtrl

open Lib

variable {P : Type}

namespace ScopeFrameQueue

variable {queue : ScopeFrameQueue P}

/-- What the queue holds, and how far apart the generations are. -/
inductive Holding (queue : ScopeFrameQueue P) : Prop
  | idle : queue.inFlight = none → queue.pending = none → queue.pendingSkippedFrames = 0 → Holding queue
  | single (frame : ScopeFrame P) : queue.inFlight = some frame → queue.pending = none →
      queue.pendingSkippedFrames = 0 → queue.nextGeneration = frame.generation + 1 →
      (queue.delivered = false → frame.skippedFrames = 0) → Holding queue
  | double (frame pending : ScopeFrame P) : queue.inFlight = some frame → queue.pending = some pending →
      pending.generation + 1 = queue.nextGeneration →
      pending.generation = frame.generation + 1 + queue.pendingSkippedFrames →
      (queue.delivered = false → frame.skippedFrames = 0) → Holding queue

/-- The generation of the next frame returned, if none is skipped. -/
def frontier (queue : ScopeFrameQueue P) : ℕ :=
  match queue.inFlight with
  | none => queue.nextGeneration
  | some frame => if queue.delivered then frame.generation + 1 else frame.generation

theorem Holding.frontier_le (h : queue.Holding) : queue.frontier ≤ queue.nextGeneration := by
  unfold frontier
  cases h with
  | idle hflight _ _ =>
    rw [hflight]
  | single frame hflight _ _ hnext _ =>
    rw [hflight]
    dsimp only
    split_ifs <;> omega
  | double frame pending hflight _ hnext hgeneration _ =>
    rw [hflight]
    dsimp only
    split_ifs <;> omega

theorem Holding.pending_inFlight (h : queue.Holding) (hpending : queue.pending.isSome = true) :
    queue.inFlight.isSome = true := by
  cases h with
  | idle _ hnone _ =>
    rw [hnone] at hpending
    cases hpending
  | single frame hflight _ _ _ _ => rw [hflight, Option.isSome_some]
  | double frame pending hflight _ _ _ _ => rw [hflight, Option.isSome_some]

end ScopeFrameQueue

namespace ScopeQueueEvent

/-- Of two frames returned one after the other, the second says how many were skipped. -/
def Follows : ScopeQueueEvent P → ScopeQueueEvent P → Prop
  | .returned _ _ first, .returned _ _ second =>
    second.generation = first.generation + 1 + second.skippedFrames
  | _, _ => True

end ScopeQueueEvent

namespace ScopeQueueHistory

variable {history history' : ScopeQueueHistory P}

structure Accounted (history : ScopeQueueHistory P) : Prop where
  holding : history.queue.Holding
  owned : history.queue.owner = [] → history.queue.inFlight = none
  increasing : history.published.Pairwise fun a b => a.generation < b.generation
  numbered : ∀ frame ∈ history.published, frame.generation < history.queue.nextGeneration
  flying : ∀ frame ∈ history.queue.inFlight, { frame with skippedFrames := 0 } ∈ history.published
  waiting : ∀ frame ∈ history.queue.pending, { frame with skippedFrames := 0 } ∈ history.published
  callers : ∀ caller owner frame, .returned caller owner frame ∈ history.events →
    caller = owner ∧ caller ≠ [] ∧ { frame with skippedFrames := 0 } ∈ history.published
  once : history.returned.Pairwise fun a b => a.generation < b.generation
  behind : ∀ frame ∈ history.returned, frame.generation < history.queue.frontier
  last : ∀ caller owner frame, history.events.getLast? = some (.returned caller owner frame) →
    history.queue.frontier = frame.generation + 1
  follows : history.events.IsChain ScopeQueueEvent.Follows
  total : history.queue.skippedFrames = history.skippedSinceAcquired

/-- What a call does: nothing that the accounts see, a frame published, a frame returned, or the frames dropped. -/
inductive Turn (history : ScopeQueueHistory P) : ScopeQueueHistory P → Prop
  | kept (queue : ScopeFrameQueue P) : queue.Holding → (queue.owner = [] → queue.inFlight = none) →
      queue.nextGeneration = history.queue.nextGeneration → queue.frontier = history.queue.frontier →
      queue.skippedFrames = history.queue.skippedFrames →
      (∀ frame ∈ queue.inFlight, frame ∈ history.queue.inFlight) →
      (∀ frame ∈ queue.pending, frame ∈ history.queue.pending) → Turn history { history with queue }
  | published (queue : ScopeFrameQueue P) (frame : ScopeFrame P) : queue.Holding → queue.owner ≠ [] →
      frame.generation = history.queue.nextGeneration → frame.skippedFrames = 0 →
      queue.nextGeneration = history.queue.nextGeneration + 1 →
      queue.frontier = history.queue.frontier → queue.skippedFrames = history.queue.skippedFrames →
      (∀ other ∈ queue.inFlight, other = frame ∨ other ∈ history.queue.inFlight) →
      (∀ other ∈ queue.pending, other = frame) →
      Turn history { history with queue, published := history.published ++ [frame] }
  | returned (queue : ScopeFrameQueue P) (caller : ScopeOwner) (frame : ScopeFrame P) : queue.Holding →
      caller = history.queue.owner → caller ≠ [] → queue.owner = caller →
      queue.nextGeneration = history.queue.nextGeneration → queue.inFlight = some frame →
      queue.pending.isSome = false ∨ queue.pending = history.queue.pending →
      { frame with skippedFrames := 0 } ∈ history.published →
      frame.generation = history.queue.frontier + frame.skippedFrames →
      queue.frontier = frame.generation + 1 →
      queue.skippedFrames = history.queue.skippedFrames + frame.skippedFrames →
      Turn history { history with
        queue, events := history.events ++ [.returned caller history.queue.owner frame] }
  | dropped (queue : ScopeFrameQueue P) (event : ScopeQueueEvent P) : queue.inFlight = none →
      queue.pending = none → queue.pendingSkippedFrames = 0 →
      queue.nextGeneration = history.queue.nextGeneration →
      (event = .cleared ∧ queue.skippedFrames = history.queue.skippedFrames ∨
        event = .released ∧ queue.skippedFrames = 0) →
      Turn history { history with queue, events := history.events ++ [event] }

theorem Turn.same (h : history.Accounted) : history.Turn history :=
  .kept history.queue h.holding h.owned rfl rfl rfl (fun _ hframe => hframe) fun _ hframe => hframe

section Calls

variable {owner : ScopeOwner}

section

variable (h : history.Accounted)

include h

theorem turn_acquire (owner : ScopeOwner) :
    history.Turn { history with queue := (history.queue.acquire owner).2 } := by
  unfold ScopeFrameQueue.acquire
  split_ifs with hempty hother
  · exact .same h
  · exact .same h
  · refine .kept _ ?_ (fun hnone => absurd hnone hempty) rfl rfl rfl (fun _ hframe => hframe)
      fun _ hframe => hframe
    cases h.holding with
    | idle hflight hpending hskipped => exact .idle hflight hpending hskipped
    | single frame hflight hpending hskipped hnext hfresh =>
      exact .single frame hflight hpending hskipped hnext hfresh
    | double frame pending hflight hpending hnext hgeneration hfresh =>
      exact .double frame pending hflight hpending hnext hgeneration hfresh

theorem turn_publish (frame : ScopeFrame P) (hstep : history.step (.publish frame) = some history') :
    history.Turn history' := by
  cases hstep
  unfold ScopeFrameQueue.publish
  by_cases howner : history.queue.owner = []
  · simp only [if_pos howner]
    exact .same h
  · simp only [if_neg howner]
    cases h.holding with
    | idle hflight hpending hskipped =>
      simp only [hflight, if_true]
      refine .published _ _ (.single _ rfl hpending hskipped rfl fun _ => rfl) howner rfl rfl rfl ?_ rfl ?_ ?_
      · unfold ScopeFrameQueue.frontier
        simp only [hflight]
        rfl
      · intro other hother
        exact .inl (Option.some.inj hother).symm
      · intro other hother
        rw [hpending] at hother
        cases hother
    | single flying hflight hpending hskipped hnext hfresh =>
      simp only [hflight, if_true]
      refine .published _ _ (.double flying _ rfl rfl rfl ?_ hfresh) howner rfl rfl rfl ?_ rfl ?_ ?_
      · rw [hpending, hskipped, hnext]
        rfl
      · unfold ScopeFrameQueue.frontier
        simp only [hflight]
      · intro other hother
        rw [hflight]
        exact .inr hother
      · exact fun other hother => (Option.some.inj hother).symm
    | double flying pending hflight hpending hnext hgeneration hfresh =>
      simp only [hflight, if_true]
      refine .published _ _ (.double flying _ rfl rfl rfl ?_ hfresh) howner rfl rfl rfl ?_ rfl ?_ ?_
      · rw [hpending, Option.isSome_some, Bool.toNat_true]
        dsimp only
        omega
      · unfold ScopeFrameQueue.frontier
        simp only [hflight]
      · intro other hother
        rw [hflight]
        exact .inr hother
      · exact fun other hother => (Option.some.inj hother).symm

theorem turn_next (owner : ScopeOwner) : history.Turn (history.answer owner (history.queue.next owner)) := by
  unfold answer ScopeFrameQueue.next
  split_ifs with hnone
  · rw [Option.map_none, Option.toList_none, List.append_nil]
    exact .same h
  · obtain ⟨howner, hflying⟩ := not_or.mp hnone
    obtain ⟨hflying, hdelivered⟩ := not_or.mp hflying
    obtain ⟨frame, hframe⟩ : ∃ frame, history.queue.inFlight = some frame := by
      apply Option.ne_none_iff_exists'.mp
      rintro hidle
      rw [hidle] at hflying
      exact hflying rfl
    have hfrontier : history.queue.frontier = frame.generation := by
      unfold ScopeFrameQueue.frontier
      rw [hframe]
      exact if_neg hdelivered
    have hempty : owner ≠ [] := by
      rintro rfl
      have hidle := h.owned (not_not.mp howner)
      rw [hframe] at hidle
      cases hidle
    have hholding : ({ history.queue with
        inFlight := some frame
        delivered := true } : ScopeFrameQueue P).Holding ∧ frame.skippedFrames = 0 := by
      cases h.holding with
      | idle hflight _ _ =>
        rw [hframe] at hflight
        cases hflight
      | single flying hflight hpending hskipped hnext hfresh =>
        cases hframe.symm.trans hflight
        exact ⟨.single frame rfl hpending hskipped hnext (fun hfalse => nomatch hfalse),
          hfresh (Bool.eq_false_of_not_eq_true hdelivered)⟩
      | double flying pending hflight hpending hnext hgeneration hfresh =>
        cases hframe.symm.trans hflight
        exact ⟨.double frame pending rfl hpending hnext hgeneration (fun hfalse => nomatch hfalse),
          hfresh (Bool.eq_false_of_not_eq_true hdelivered)⟩
    rw [hframe, Option.map_some, Option.toList_some]
    refine .returned _ owner frame hholding.1 (not_not.mp howner).symm hempty (not_not.mp howner) rfl rfl
      (.inr rfl) (h.flying frame hframe) ?_ ?_ ?_
    · rw [hfrontier, hholding.2, Nat.add_zero]
    · unfold ScopeFrameQueue.frontier
      simp only [if_true]
    · rw [hholding.2, Nat.add_zero]

/-- Here the condition is used: without it the frontier would be that of a frame nobody got. -/
theorem turn_acknowledge (owner : ScopeOwner) (generation : ℕ)
    (hreturned : history.AcknowledgesReturned (.acknowledge owner generation)) :
    history.Turn (history.answer owner (history.queue.acknowledge owner generation)) := by
  unfold answer ScopeFrameQueue.acknowledge
  cases hframe : history.queue.inFlight with
  | none =>
    rw [Option.map_none, Option.toList_none, List.append_nil]
    exact .same h
  | some frame =>
    dsimp only
    split_ifs with hstale
    · rw [Option.map_none, Option.toList_none, List.append_nil]
      exact .same h
    · obtain ⟨howner, hgeneration⟩ := not_or.mp hstale
      have howner := not_not.mp howner
      have hdelivered := hreturned frame hframe howner (not_not.mp hgeneration)
      have hfrontier : history.queue.frontier = frame.generation + 1 := by
        unfold ScopeFrameQueue.frontier
        rw [hframe]
        exact if_pos hdelivered
      have hempty : owner ≠ [] := by
        rintro rfl
        have hidle := h.owned howner
        rw [hframe] at hidle
        cases hidle
      cases h.holding with
      | idle hflight _ _ =>
        rw [hframe] at hflight
        cases hflight
      | single flying hflight hpending hskipped hnext _ =>
        cases hframe.symm.trans hflight
        simp only [hpending]
        rw [Option.map_none, Option.toList_none, List.append_nil]
        refine .kept _ (.idle rfl rfl hskipped) (fun _ => rfl) rfl ?_ rfl ?_ ?_
        · rw [hfrontier]
          exact hnext
        · intro other hother
          cases hother
        · intro other hother
          cases hother
      | double flying pending hflight hpending hnext hbetween _ =>
        cases hframe.symm.trans hflight
        simp only [hpending]
        rw [Option.map_some, Option.toList_some]
        refine .returned _ owner _ (.single _ rfl rfl rfl hnext.symm (fun hfalse => nomatch hfalse))
          howner.symm hempty howner rfl rfl (.inl rfl) ?_ ?_ rfl rfl
        · exact h.waiting pending hpending
        · rw [hfrontier]
          exact hbetween

theorem turn_clear (owner : ScopeOwner) (hstep : history.step (.clear owner) = some history') :
    history.Turn history' := by
  cases hstep
  unfold ScopeFrameQueue.clear
  by_cases howner : history.queue.owner = owner
  · rw [if_neg (not_not.mpr howner), if_pos howner]
    exact .dropped _ .cleared rfl rfl rfl rfl (.inl ⟨rfl, rfl⟩)
  · rw [if_pos howner, if_neg howner]
    exact .same h

theorem turn_release (owner : ScopeOwner) (hstep : history.step (.release owner) = some history') :
    history.Turn history' := by
  cases hstep
  unfold ScopeFrameQueue.release
  by_cases howner : history.queue.owner = owner
  · rw [if_neg (not_not.mpr howner), if_pos howner]
    exact .dropped _ .released rfl rfl rfl rfl (.inr ⟨rfl, rfl⟩)
  · rw [if_pos howner, if_neg howner]
    exact .same h

theorem step_turn {action : ScopeQueueAction P} (hok : history.AcknowledgesReturned action)
    (hstep : history.step action = some history') : history.Turn history' := by
  cases action with
  | acquire owner =>
    cases hstep
    exact turn_acquire h owner
  | publish frame => exact turn_publish h frame hstep
  | next owner =>
    cases hstep
    exact turn_next h owner
  | waitNext owner =>
    cases hstep
    exact turn_next h owner
  | acknowledge owner generation =>
    cases hstep
    exact turn_acknowledge h owner generation hok
  | clear owner => exact turn_clear h owner hstep
  | release owner => exact turn_release h owner hstep

end

end Calls

theorem returned_append (history : ScopeQueueHistory P) (queue : ScopeFrameQueue P)
    (event : ScopeQueueEvent P) :
    ({ history with queue, events := history.events ++ [event] } : ScopeQueueHistory P).returned =
      history.returned ++ ({ events := [event] } : ScopeQueueHistory P).returned :=
  List.filterMap_append

theorem Accounted.publish (h : history.Accounted) {frame : ScopeFrame P}
    (hgeneration : frame.generation = history.queue.nextGeneration) :
    (history.published ++ [frame]).Pairwise (fun a b => a.generation < b.generation) ∧
      ∀ other ∈ history.published ++ [frame], other.generation < history.queue.nextGeneration + 1 := by
  constructor
  · refine List.pairwise_append.mpr ⟨h.increasing, List.pairwise_singleton _ _, ?_⟩
    intro a ha b hb
    rw [List.mem_singleton.mp hb, hgeneration]
    exact h.numbered a ha
  · intro other hother
    rcases List.mem_append.mp hother with hold | hnew
    · exact Nat.lt_succ_of_lt (h.numbered other hold)
    · rw [List.mem_singleton.mp hnew, hgeneration]
      exact Nat.lt_succ_self _

theorem Accounted.turn (h : history.Accounted) (hturn : history.Turn history') : history'.Accounted := by
  cases hturn with
  | kept queue hholding howned hnext hfrontier hskipped hflying hpending =>
    exact
      { holding := hholding
        owned := howned
        increasing := h.increasing
        numbered := fun frame hframe => hnext ▸ h.numbered frame hframe
        flying := fun frame hframe => h.flying frame (hflying frame hframe)
        waiting := fun frame hframe => h.waiting frame (hpending frame hframe)
        callers := h.callers
        once := h.once
        behind := fun frame hframe => hfrontier ▸ h.behind frame hframe
        last := fun caller owner frame hlast => hfrontier.trans (h.last caller owner frame hlast)
        follows := h.follows
        total := hskipped.trans h.total }
  | published queue frame hholding howner hgeneration hfresh hnext hfrontier hskipped hflying hpending =>
    obtain ⟨hincreasing, hnumbered⟩ := h.publish hgeneration
    have hself : { frame with skippedFrames := 0 } = frame := by rw [← hfresh]
    exact
      { holding := hholding
        owned := fun hnone => absurd hnone howner
        increasing := hincreasing
        numbered := fun other hother => hnext ▸ hnumbered other hother
        flying := by
          intro other hother
          rcases hflying other hother with rfl | hold
          · exact List.mem_append_right _ (List.mem_singleton.mpr hself)
          · exact List.mem_append_left _ (h.flying other hold)
        waiting := by
          intro other hother
          rw [hpending other hother, hself]
          exact List.mem_append_right _ List.mem_cons_self
        callers := by
          intro caller owner other hother
          obtain ⟨hcaller, hnonempty, hmem⟩ := h.callers caller owner other hother
          exact ⟨hcaller, hnonempty, List.mem_append_left _ hmem⟩
        once := h.once
        behind := fun other hother => hfrontier ▸ h.behind other hother
        last := fun caller owner other hlast => hfrontier.trans (h.last caller owner other hlast)
        follows := h.follows
        total := hskipped.trans h.total }
  | returned queue caller frame hholding hcaller hnonempty howner hnext hflight hpending hmem hgeneration
      hfrontier hskipped =>
    exact
      { holding := hholding
        owned := fun hnone => absurd (howner.symm.trans hnone) hnonempty
        increasing := h.increasing
        numbered := fun other hother => hnext ▸ h.numbered other hother
        flying := by
          intro other hother
          rw [hflight] at hother
          cases hother
          exact hmem
        waiting := by
          intro other hother
          rcases hpending with hnone | hsame
          · rw [Option.mem_def.mp hother] at hnone
            cases hnone
          · exact h.waiting other (hsame ▸ hother)
        callers := by
          intro caller' owner' other hother
          rcases List.mem_append.mp hother with hold | hnew
          · exact h.callers caller' owner' other hold
          · cases List.mem_singleton.mp hnew
            exact ⟨hcaller, hnonempty, hmem⟩
        once := by
          rw [returned_append]
          refine List.pairwise_append.mpr ⟨h.once, List.pairwise_singleton _ _, ?_⟩
          intro a ha b hb
          have hlt := h.behind a ha
          rw [List.mem_singleton.mp hb]
          omega
        behind := by
          intro other hother
          rw [returned_append] at hother
          rw [hfrontier]
          rcases List.mem_append.mp hother with hold | hnew
          · have hlt := h.behind other hold
            omega
          · rw [List.mem_singleton.mp hnew]
            exact Nat.lt_succ_self _
        last := by
          intro caller' owner' other hlast
          rw [List.getLast?_append, List.getLast?_singleton, Option.some_or] at hlast
          cases Option.some.inj hlast
          exact hfrontier
        follows := by
          refine List.isChain_append.mpr ⟨h.follows, List.isChain_singleton _, ?_⟩
          intro event hevent event' hevent'
          rw [List.head?_cons, Option.mem_some_iff] at hevent'
          subst hevent'
          cases event with
          | returned caller' owner' first =>
            have hlast := h.last caller' owner' first hevent
            show frame.generation = first.generation + 1 + frame.skippedFrames
            omega
          | cleared => trivial
          | released => trivial
        total := by
          unfold skippedSinceAcquired
          rw [List.foldl_append, hskipped, h.total]
          rfl }
  | dropped queue event hflight hpending hskipped hnext hevent =>
    have hfrontier : queue.frontier = history.queue.nextGeneration := by
      unfold ScopeFrameQueue.frontier
      rw [hflight]
      exact hnext
    exact
      { holding := .idle hflight hpending hskipped
        owned := fun _ => hflight
        increasing := h.increasing
        numbered := fun other hother => hnext ▸ h.numbered other hother
        flying := fun other hother => by
          rw [hflight] at hother
          cases hother
        waiting := fun other hother => by
          rw [hpending] at hother
          cases hother
        callers := by
          intro caller owner other hother
          rcases List.mem_append.mp hother with hold | hnew
          · exact h.callers caller owner other hold
          · rcases hevent with ⟨rfl, -⟩ | ⟨rfl, -⟩ <;> cases List.mem_singleton.mp hnew
        once := by
          rw [returned_append]
          rcases hevent with ⟨rfl, -⟩ | ⟨rfl, -⟩ <;> exact (List.append_nil _).symm ▸ h.once
        behind := by
          intro other hother
          have hold : other ∈ history.returned := by
            rw [returned_append] at hother
            rcases hevent with ⟨rfl, -⟩ | ⟨rfl, -⟩ <;> exact List.append_nil history.returned ▸ hother
          rw [hfrontier]
          exact (h.behind other hold).trans_le h.holding.frontier_le
        last := by
          intro caller owner other hlast
          rw [List.getLast?_append, List.getLast?_singleton, Option.some_or] at hlast
          rcases hevent with ⟨rfl, -⟩ | ⟨rfl, -⟩ <;> cases Option.some.inj hlast
        follows := by
          refine List.isChain_append.mpr ⟨h.follows, List.isChain_singleton _, ?_⟩
          intro before _ after hafter
          rw [List.head?_cons, Option.mem_some_iff] at hafter
          subst hafter
          rcases hevent with ⟨rfl, -⟩ | ⟨rfl, -⟩ <;> cases before <;> trivial
        total := by
          unfold skippedSinceAcquired
          rw [List.foldl_append]
          rcases hevent with ⟨rfl, hsame⟩ | ⟨rfl, hzero⟩
          · exact hsame.trans h.total
          · exact hzero }

theorem accounted_initial : ({} : ScopeQueueHistory P).Accounted :=
  { holding := .idle rfl rfl rfl
    owned := fun _ => rfl
    increasing := List.Pairwise.nil
    numbered := by simp
    flying := by simp
    waiting := by simp
    callers := by simp
    once := List.Pairwise.nil
    behind := by simp [returned]
    last := by simp
    follows := List.isChain_nil
    total := rfl }

/-- In every state of a run in which a frame is acknowledged only after it was returned: a pending frame implies one
in flight; published generations strictly increase; a returned frame is a published one, goes to the owner, and is
returned once; of two frames returned one after the other without a clear or release between, the second has as many
skipped frames as there are generations between them; and the total is the sum of the skipped frames returned since
the queue was acquired. -/
theorem frames_accounted {history : ScopeQueueHistory P} {actions : List (ScopeQueueAction P)}
    (hrun : RunWhere step AcknowledgesReturned {} actions history) :
    (history.queue.pending.isSome = true → history.queue.inFlight.isSome = true) ∧
    (history.published.map ScopeFrame.generation).Pairwise (· < ·) ∧
    (history.returned.map ScopeFrame.generation).Nodup ∧
    (∀ caller owner frame, .returned caller owner frame ∈ history.events →
      caller = owner ∧ caller ≠ [] ∧ { frame with skippedFrames := 0 } ∈ history.published) ∧
    (∀ before caller owner first caller' owner' second after,
      history.events = before ++ .returned caller owner first :: .returned caller' owner' second :: after →
      (second.generation : ℤ) - first.generation - 1 = second.skippedFrames) ∧
    history.queue.skippedFrames = history.skippedSinceAcquired := by
  have haccounted : history.Accounted := by
    apply hrun.invariant
    · exact accounted_initial
    · intro history action history' hok hstep h
      exact h.turn (step_turn h hok hstep)
  refine ⟨haccounted.holding.pending_inFlight, ?_, ?_, haccounted.callers, ?_, haccounted.total⟩
  · exact List.pairwise_map.mpr haccounted.increasing
  · rw [List.Nodup, List.pairwise_map]
    exact haccounted.once.imp fun hlt => Nat.ne_of_lt hlt
  · intro before caller owner first caller' owner' second after hevents
    have hchain := haccounted.follows
    rw [hevents] at hchain
    have hpair := (List.isChain_append.mp hchain).2.1
    have hfollows : second.generation = first.generation + 1 + second.skippedFrames :=
      (List.isChain_cons_cons.mp hpair).1
    omega

/-! One owner and four frames; the second is replaced while the first is written. -/

def inspector : ScopeOwner := ['i']

def fourFrames : List (ScopeQueueAction ℕ) :=
  [.acquire inspector, .publish { payload := 10 }, .next inspector, .publish { payload := 20 },
    .publish { payload := 30 }, .acknowledge inspector 1, .acknowledge inspector 1, .acknowledge inspector 3,
    .publish { payload := 40 }, .waitNext inspector]

def fourFramesAfter : ScopeQueueHistory ℕ := (execWhere step AcknowledgesReturned {} fourFrames).getD {}

theorem frames_accounted_four :
    (fourFramesAfter.returned.map fun frame => (frame.generation, frame.skippedFrames)) =
        [(1, 0), (3, 1), (4, 0)] ∧
      (fourFramesAfter.returned.map ScopeFrame.generation).Nodup ∧
      fourFramesAfter.queue.skippedFrames = fourFramesAfter.skippedSinceAcquired := by
  have hrun : RunWhere step AcknowledgesReturned {} fourFrames fourFramesAfter := .getD_exec (by decide +kernel)
  have haccounted := frames_accounted hrun
  exact ⟨by decide +kernel, haccounted.2.2.1, haccounted.2.2.2.2.2⟩

/-- A frame acknowledged before it was returned is neither returned nor counted as skipped. -/
theorem frame_acknowledged_unseen : ∃ history : ScopeQueueHistory ℕ, ∃ first second : ScopeFrame ℕ,
      Run step {} [.acquire inspector, .publish { payload := 10 }, .next inspector, .acknowledge inspector 1,
        .publish { payload := 20 }, .acknowledge inspector 2, .publish { payload := 30 }, .next inspector]
        history ∧
      history.events = [.returned inspector inspector first, .returned inspector inspector second] ∧
      second.generation = first.generation + 2 ∧ second.skippedFrames = 0 := by
  refine ⟨_, _, _, Run.of_exec rfl, rfl, rfl, rfl⟩

end ScopeQueueHistory

end LinuxcncCtrl
