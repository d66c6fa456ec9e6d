import LinuxcncCtrl.Spec.ProgramPreview

/-! The batches of a parse. Every flush cuts the pending operations into pieces without changing their
order, first by count and size in memory, then by encoded size; only an exception leaves operations
behind. -/

namespace LinuxcncCtrl

variable {O : Type} {limits : PreviewLimits O}

namespace PreviewLimits

structure Fits (limits : PreviewLimits O) (maxBatch : ℕ) (operations : List O) : Prop where
  nonempty : operations ≠ []
  count : operations.length ≤ maxBatch
  bytes : limits.encodedSize operations ≤ maxPreviewBytes

/-- The pieces are a beginning of the operations, and all of them unless something was thrown. -/
structure Cuts (limits : PreviewLimits O) (maxBatch : ℕ) (operations : List O)
    (cut : List (List O) × Option PreviewError) : Prop where
  fits : ∀ piece ∈ cut.1, limits.Fits maxBatch piece
  order : cut.1.flatten <+: operations
  whole : cut.2 = none → cut.1.flatten = operations

variable {operations : List O} {maxBatch : ℕ} {n : ℕ}

theorem batchCount_le {count bytes : ℕ}
    (h : limits.batchCount maxBatch count bytes operations = .ok n) (hcount : count ≤ maxBatch) :
    count ≤ n ∧ n ≤ maxBatch := by
  induction operations generalizing count bytes with
  | nil =>
    cases h
    exact ⟨le_rfl, hcount⟩
  | cons operation operations ih =>
    unfold batchCount at h
    dsimp only at h
    split_ifs at h with hfull hbreak hlarge
    · cases h
      exact ⟨le_rfl, hcount⟩
    · cases h
      exact ⟨le_rfl, hcount⟩
    · obtain ⟨hlower, hupper⟩ := ih h (by omega)
      exact ⟨by omega, hupper⟩

theorem batchCount_pos (hmax : 0 < maxBatch) {operation : O}
    (h : limits.batchCount maxBatch 0 0 (operation :: operations) = .ok n) :
    0 < n ∧ n ≤ maxBatch := by
  unfold batchCount at h
  dsimp only at h
  split_ifs at h with hfull hbreak hlarge
  · omega
  · exact absurd rfl hbreak.1
  · obtain ⟨hlower, hupper⟩ := batchCount_le h (by omega)
    exact ⟨by omega, hupper⟩

theorem splitBatch_cuts {event : List O}
    (hevent : event = [] ∨ limits.encodedSize event ≤ maxPreviewBytes) :
    limits.Cuts (event ++ operations).length (event ++ operations)
      (limits.splitBatch event operations) := by
  induction operations generalizing event with
  | nil =>
    unfold splitBatch
    rw [List.append_nil]
    split_ifs with hempty
    · rw [hempty]
      exact ⟨nofun, List.nil_prefix, fun _ => rfl⟩
    · have hbytes := hevent.resolve_left hempty
      refine ⟨fun piece hpiece => ?_, ?_, fun _ => ?_⟩
      · rw [List.mem_singleton.mp hpiece]
        exact ⟨hempty, le_rfl, hbytes⟩
      · simp
      · simp
  | cons operation operations ih =>
    have hassoc : event ++ operation :: operations = (event ++ [operation]) ++ operations := by simp
    unfold splitBatch
    split_ifs with hfits hempty hlarge
    · rw [hassoc]
      exact ih (.inr hfits)
    · exact ⟨nofun, List.nil_prefix, nofun⟩
    · have hbytes := hevent.resolve_left hempty
      refine ⟨fun piece hpiece => ?_, ?_, nofun⟩
      · rw [List.mem_singleton.mp hpiece]
        exact ⟨hempty, by simp, hbytes⟩
      · simp
    · -- the operation opens the next event
      have hbytes := hevent.resolve_left hempty
      have hrest : limits.Cuts ([operation] ++ operations).length ([operation] ++ operations)
          (limits.splitBatch [operation] operations) := ih (.inr (Nat.le_of_not_lt hlarge))
      refine ⟨fun piece hpiece => ?_, ?_, fun hnone => ?_⟩
      · rcases List.mem_cons.mp hpiece with rfl | hmem
        · exact ⟨hempty, by simp, hbytes⟩
        · have hpiece := hrest.fits piece hmem
          refine { hpiece with count := hpiece.count.trans ?_ }
          simp
      · rw [List.flatten_cons]
        exact (List.prefix_append_right_inj event).mpr hrest.order
      · rw [List.flatten_cons, hrest.whole hnone]
        rfl

theorem flushLoop_cuts (hmax : 0 < maxBatch) {turns : ℕ} (hturns : operations.length ≤ turns) :
    limits.Cuts maxBatch operations (limits.flushLoop maxBatch turns operations) := by
  induction turns generalizing operations with
  | zero =>
    have hnil := List.length_eq_zero_iff.mp (Nat.le_zero.mp hturns)
    rw [hnil]
    exact ⟨nofun, List.nil_prefix, fun _ => rfl⟩
  | succ turns ih =>
    cases operations with
    | nil => exact ⟨nofun, List.nil_prefix, fun _ => rfl⟩
    | cons operation operations =>
      unfold flushLoop
      cases hcount : limits.batchCount maxBatch 0 0 (operation :: operations) with
      | error error => exact ⟨nofun, List.nil_prefix, nofun⟩
      | ok count =>
        obtain ⟨hpositive, hle⟩ := batchCount_pos hmax hcount
        dsimp only
        generalize hbatch : (operation :: operations).take count = batch
        have hlength : batch.length ≤ maxBatch := by
          rw [← hbatch, List.length_take]
          omega
        have hsplit : limits.Cuts batch.length batch (limits.splitBatch [] batch) :=
          splitBatch_cuts (.inl rfl)
        generalize limits.splitBatch [] batch = cut at hsplit
        obtain ⟨events, thrown⟩ := cut
        have hfits : ∀ piece ∈ events, limits.Fits maxBatch piece := fun piece hpiece =>
          ⟨(hsplit.fits piece hpiece).nonempty, (hsplit.fits piece hpiece).count.trans hlength,
            (hsplit.fits piece hpiece).bytes⟩
        have hwhole : operation :: operations = batch ++ (operation :: operations).drop count := by
          rw [← hbatch, List.take_append_drop]
        cases thrown with
        | some error =>
          refine ⟨hfits, ?_, nofun⟩
          rw [hwhole]
          exact hsplit.order.trans (List.prefix_append _ _)
        | none =>
          have hflatten : events.flatten = batch := hsplit.whole rfl
          have hshorter : ((operation :: operations).drop count).length ≤ turns := by
            rw [List.length_drop]
            omega
          have hrest := ih hshorter
          refine ⟨fun piece hpiece => ?_, ?_, fun hnone => ?_⟩
          · rcases List.mem_append.mp hpiece with hmem | hmem
            · exact hfits piece hmem
            · exact hrest.fits piece hmem
          · rw [List.flatten_append, hflatten]
            conv_rhs => rw [hwhole]
            exact (List.prefix_append_right_inj batch).mpr hrest.order
          · rw [List.flatten_append, hflatten, hrest.whole hnone, ← hwhole]

end PreviewLimits

namespace ParseContext

variable {context : ParseContext O}

structure Sound (limits : PreviewLimits O) (context : ParseContext O) : Prop where
  count : context.operationCount = context.added.length
  fits : ∀ operations, .batch operations ∈ context.events →
    limits.Fits limits.batchSize operations
  order : context.events.flatMap PreviewEvent.operations <+: context.added
  whole : context.thrown = none →
    context.events.flatMap PreviewEvent.operations ++ context.operations = context.added
  terminal : ∀ event ∈ context.events, event.isTerminal = false

theorem Sound.andThen (h : context.Sound limits) {next : ParseContext O → ParseContext O}
    (hnext : context.thrown = none → (next context).Sound limits) :
    (context.andThen next).Sound limits := by
  unfold ParseContext.andThen
  split_ifs with hthrown
  · exact h
  · exact hnext (Option.not_isSome_iff_eq_none.mp hthrown)

theorem Sound.consume (h : context.Sound limits) (hthrown : context.thrown = none)
    (recorded : Recorded O) : (context.consume recorded).Sound limits := by
  have hwhole := h.whole hthrown
  refine ⟨?_, h.fits, ?_, fun _ => ?_, h.terminal⟩
  · show context.operationCount + _ = (context.added ++ _).length
    rw [List.length_append, h.count]
  · exact h.order.trans (List.prefix_append _ _)
  · show context.events.flatMap _ ++ (context.operations ++ _) = context.added ++ _
    rw [← List.append_assoc, hwhole]

theorem flatMap_batch (pieces : List (List O)) :
    (pieces.map PreviewEvent.batch).flatMap PreviewEvent.operations = pieces.flatten := by
  induction pieces with
  | nil => rfl
  | cons piece pieces ih =>
    rw [List.map_cons, List.flatMap_cons, ih]
    rfl

theorem Sound.flushBatch (h : context.Sound limits) (hthrown : context.thrown = none)
    (hbatch : 0 < limits.batchSize) : (context.flushBatch limits).Sound limits := by
  have hwhole := h.whole hthrown
  have hcuts : limits.Cuts limits.batchSize context.operations
      (limits.flushLoop limits.batchSize context.operations.length context.operations) :=
    PreviewLimits.flushLoop_cuts hbatch le_rfl
  unfold ParseContext.flushBatch
  rw [if_neg (Nat.ne_of_gt hbatch)]
  dsimp only
  generalize limits.flushLoop limits.batchSize context.operations.length context.operations = cut
    at hcuts
  refine ⟨h.count, fun operations hmem => ?_, ?_, fun hnone => ?_, fun event hmem => ?_⟩
  · rcases List.mem_append.mp hmem with hold | hnew
    · exact h.fits operations hold
    · obtain ⟨piece, hpiece, heq⟩ := List.mem_map.mp hnew
      rw [← PreviewEvent.batch.inj heq]
      exact hcuts.fits piece hpiece
  · rw [List.flatMap_append, flatMap_batch, ← hwhole]
    exact (List.prefix_append_right_inj _).mpr hcuts.order
  · rw [List.flatMap_append, flatMap_batch, hcuts.whole hnone, List.append_nil, hwhole]
  · rcases List.mem_append.mp hmem with hold | hnew
    · exact h.terminal event hold
    · obtain ⟨piece, -, rfl⟩ := List.mem_map.mp hnew
      rfl

theorem flatMap_progress (events : List (PreviewEvent O)) (bytesRead totalBytes count : ℕ) :
    (events ++ [PreviewEvent.progress bytesRead totalBytes count]).flatMap PreviewEvent.operations =
      events.flatMap PreviewEvent.operations := by
  rw [List.flatMap_append]
  exact List.append_nil _

theorem Sound.reportProgress (h : context.Sound limits) (totalBytes bytesRead : ℕ) :
    (context.reportProgress totalBytes bytesRead).Sound limits := by
  unfold ParseContext.reportProgress
  split_ifs
  · exact h
  · refine ⟨h.count, fun operations hmem => ?_, ?_, fun hnone => ?_, fun event hmem => ?_⟩
    · rcases List.mem_append.mp hmem with hold | hnew
      · exact h.fits operations hold
      · cases List.mem_singleton.mp hnew
    · rw [flatMap_progress]
      exact h.order
    · rw [flatMap_progress]
      exact h.whole hnone
    · rcases List.mem_append.mp hmem with hold | hnew
      · exact h.terminal event hold
      · rw [List.mem_singleton.mp hnew]
        rfl

theorem Sound.interpret (h : context.Sound limits) (hthrown : context.thrown = none)
    (hbatch : 0 < limits.batchSize) (totalBytes : ℕ) (step : InterpStep O) :
    (context.interpret limits totalBytes step).Sound limits := by
  have hconsumed := h.consume hthrown step.toRecorded
  have hflushed : ((context.consume step.toRecorded).andThen fun context =>
      context.flushReadyBatch limits).Sound limits := by
    apply hconsumed.andThen
    intro hnone
    unfold flushReadyBatch
    split_ifs
    · exact hconsumed
    · exact hconsumed.flushBatch hnone hbatch
  apply hflushed.andThen
  intro _
  cases step.reported with
  | none => exact hflushed
  | some bytesRead => exact hflushed.reportProgress totalBytes bytesRead

theorem sound_steps (h : context.Sound limits) (hbatch : 0 < limits.batchSize) (totalBytes : ℕ)
    (steps : List (InterpStep O)) :
    (steps.foldl (fun context step => context.andThen fun context =>
      context.interpret limits totalBytes step) context).Sound limits := by
  induction steps generalizing context with
  | nil => exact h
  | cons step steps ih =>
    apply ih
    exact h.andThen fun hnone => h.interpret hnone hbatch totalBytes step

/-- A parse has sent a beginning of the operations that were added, and all of them if it did not end
with an exception. -/
theorem sound_parseFile (hbatch : 0 < limits.batchSize) (program : PreviewProgram O) :
    (parseFile limits program).Sound limits ∧ ((parseFile limits program).thrown = none →
        (parseFile limits program).operations = []) := by
  have hempty : ({} : ParseContext O).Sound limits :=
    ⟨rfl, nofun, List.nil_prefix, fun _ => rfl, nofun⟩
  have hstarted := hempty.consume rfl program.startup
  have hstepped := sound_steps hstarted hbatch program.totalBytes program.steps
  unfold parseFile
  dsimp only
  generalize program.steps.foldl _ _ = stepped at hstepped
  have hended : (stepped.andThen fun context =>
      { context with thrown := program.ending }).Sound limits :=
    hstepped.andThen fun hnone => { hstepped with whole := fun _ => hstepped.whole hnone }
  generalize stepped.andThen _ = ended at hended
  have hconsumed : (ended.andThen fun context => context.consume program.closing).Sound limits :=
    hended.andThen fun hnone => hended.consume hnone program.closing
  generalize ended.andThen _ = consumed at hconsumed
  have hflushed : (consumed.andThen fun context => context.flushBatch limits).Sound limits :=
    hconsumed.andThen fun hnone => hconsumed.flushBatch hnone hbatch
  have hemptied : (consumed.andThen fun context => context.flushBatch limits).thrown = none →
      (consumed.andThen fun context => context.flushBatch limits).operations = [] := by
    unfold ParseContext.andThen
    split_ifs with hthrown
    · intro hnone
      rw [hnone] at hthrown
      cases hthrown
    · exact fun _ => rfl
  generalize consumed.andThen _ = flushed at hflushed hemptied
  refine ⟨hflushed.andThen fun _ => hflushed.reportProgress _ _, ?_⟩
  unfold ParseContext.andThen ParseContext.reportProgress
  split_ifs <;> exact hemptied

end ParseContext

end LinuxcncCtrl
