import LinuxcncCtrl.Sanity.StatusStream

/-! What a wake writes. From any history that sits properly in the log, the event a wake composes
takes the client from the sample it holds to the newest one; `WriteInv` collects what is true of all
events written so far. -/

namespace LinuxcncCtrl

open Lib

variable {N E D : Type} {codec : DeltaCodec E D} {latest : Sample E D}

/-- In a linked history the sample just before the newest one is its delta's base. -/
theorem HistoryInv.follows_latest {service : StatusService E D} {log : List (Sample E D)}
    {observed : Option E} {rebase : ℕ} (h : HistoryInv codec service log observed rebase)
    {x : Sample E D} (hlatest : service.history.getLast? = some latest)
    (hx : x ∈ service.history) (hseq : x.sequence + 1 = latest.sequence) :
    codec.Follows x latest := by
  obtain ⟨front, hfront⟩ := List.getLast?_eq_some_iff.mp hlatest
  have hxfront : x ∈ front := by
    rw [hfront, List.mem_append, List.mem_singleton] at hx
    rcases hx with hx | rfl
    · exact hx
    · omega
  obtain ⟨y, hy⟩ := Option.isSome_iff_exists.mp
    (List.getLast?_isSome.mpr (List.ne_nil_of_mem hxfront))
  have hlinked := h.linked
  rw [hfront, List.isChain_append] at hlinked
  have hfollows : codec.Follows y latest := hlinked.2.2 y hy latest (by simp)
  have hylog : y ∈ log := h.suffix.subset (by
    rw [hfront]
    exact List.mem_append_left _ (List.mem_of_getLast? hy))
  have hxy : y = x :=
    h.numbered.eq_of_sequence hylog (h.suffix.subset hx) (by have := hfollows.1; omega)
  exact hxy ▸ hfollows

def WatchStatusEvent.IsSnapshot (event : WatchStatusEvent E D) : Prop :=
  ∃ status, event.payload = .snapshot status

variable {s : StatusSystem E D}

section

variable (h : HistoryInv codec s.service s.log s.observed s.rebase)
  (hlatest : s.service.history.getLast? = some latest)

include h hlatest

/-- The first event needs nothing of the client, and is a replay only from a retained anchor. -/
theorem composeEvent_initial (hinit : s.reactor.initialWritten = false) :
    ∃ event, s.reactor.composeEvent codec
        (selectStatusHistory s.service.history s.reactor.anchor !s.reactor.initialWritten) latest =
          some event ∧
      event.sequence = latest.sequence ∧
      (∀ held, clientApply codec held event = some latest.encoded) ∧
      (event.IsSnapshot ∨ ∃ x ∈ s.service.history, x.sequence = s.reactor.anchor) := by
  have hanchor : s.reactor.anchor = s.reactor.after := by simp [StatusReactor.anchor, hinit]
  set sel := selectStatusHistory s.service.history s.reactor.anchor !s.reactor.initialWritten
    with hsel
  have hlast : sel.entries.getLast? = some latest := by
    rw [hsel, selectStatusHistory_getLast?, hlatest]
  by_cases hreplay : s.reactor.after ≠ 0 ∧ sel.anchorRetained = true
  · have hsel' : sel = selectStatusHistory s.service.history s.reactor.after true := by
      rw [hsel, hanchor, hinit]
      rfl
    obtain ⟨first, rest, hentries, hsuffix, -⟩ :=
      selectStatusHistory_replay hreplay.1 (hsel' ▸ hreplay.2)
    rw [← hsel'] at hentries
    have happly := DeltaCodec.applyAll_linked first rest (h.linked.suffix hsuffix)
    have hend : (first :: rest).getLast (List.cons_ne_nil _ _) = latest := by
      rw [hentries, List.getLast?_eq_some_getLast (List.cons_ne_nil _ _)] at hlast
      exact Option.some.inj hlast
    refine ⟨_, by simp only [StatusReactor.composeEvent, hinit, hentries, if_pos hreplay]; rfl,
      rfl, ?_, .inr ?_⟩
    · intro held
      simp only [clientApply, happly, hend]
    · rw [← anchorRetained_iff _ _ (!s.reactor.initialWritten), ← hsel]
      exact hreplay.2
  · obtain ⟨first, rest, hentries⟩ : ∃ first rest, sel.entries = first :: rest :=
      List.exists_cons_of_ne_nil (by intro hnil; simp [hnil] at hlast)
    refine ⟨⟨latest.sequence, .snapshot latest.encoded⟩, ?_, rfl, fun _ => rfl, .inl ⟨_, rfl⟩⟩
    simp [StatusReactor.composeEvent, hinit, hentries, if_neg hreplay]

theorem composeEvent_later {p : Sample E D} (hinit : s.reactor.initialWritten = true) (hp : p ∈ s.log)
    (hprev : s.reactor.previous = some p) (hcursor : s.reactor.cursor = p.sequence) :
    match s.reactor.composeEvent codec
        (selectStatusHistory s.service.history s.reactor.anchor !s.reactor.initialWritten) latest with
    | none => p.encoded = latest.encoded
    | some event => event.sequence = latest.sequence ∧ latest.sequence ≠ p.sequence ∧
        clientApply codec (some p.encoded) event = some latest.encoded ∧
        (event.IsSnapshot ∨ ∃ x ∈ s.service.history, x.sequence = s.reactor.anchor) := by
  have hanchor : s.reactor.anchor = p.sequence := by simp [StatusReactor.anchor, hinit, hcursor]
  have hmem : latest ∈ s.log := h.suffix.subset (List.mem_of_getLast? hlatest)
  set sel := selectStatusHistory s.service.history s.reactor.anchor !s.reactor.initialWritten
    with hsel
  have hretained := anchorRetained_iff s.service.history s.reactor.anchor
    (!s.reactor.initialWritten)
  rw [← hsel] at hretained
  by_cases hsame : latest.sequence = p.sequence
  · have hlp : p = latest := h.numbered.eq_of_sequence hp hmem hsame.symm
    simp [StatusReactor.composeEvent, hinit, hcursor, hsame, hlp]
  by_cases hret : sel.anchorRetained = true
  · obtain ⟨x, hx, hxseq⟩ := hretained.mp hret
    have hxp : x = p := h.numbered.eq_of_sequence (h.suffix.subset hx) hp (hxseq.trans hanchor)
    subst hxp
    by_cases hnext : x.sequence + 1 = latest.sequence
    · have hfollows := h.follows_latest hlatest hx hnext
      obtain ⟨-, delta, hdelta, -⟩ := id hfollows
      have happly := DeltaCodec.apply_of_follows hfollows hdelta
      simp only [StatusReactor.composeEvent, hinit, hcursor, hsame, hret, hprev, hnext, hdelta]
      exact ⟨rfl, fun hn => hsame hn, congrArg some happly, .inr ⟨x, hx, hxseq⟩⟩
    · cases hmake : codec.make x.encoded latest.encoded latest.sequence with
      | none =>
        simp only [StatusReactor.composeEvent, hinit, hcursor, hsame, hret, hprev, hnext, hmake]
        exact (codec.make_eq_none_iff _ _ _).mp hmake
      | some delta =>
        simp only [StatusReactor.composeEvent, hinit, hcursor, hsame, hret, hprev, hnext, hmake]
        exact ⟨rfl, fun hn => hsame hn, congrArg some (codec.apply_make hmake), .inr ⟨x, hx, hxseq⟩⟩
  · simp only [StatusReactor.composeEvent, hinit, hcursor, hsame, hret]
    exact ⟨rfl, fun hn => hsame hn, rfl, .inl ⟨_, rfl⟩⟩

end

namespace StatusSystem

/-- `x` is the sample the last event written brings the client to. -/
def Sent (codec : DeltaCodec E D) (s : StatusSystem E D) (x : Sample E D) : Prop :=
  clientStatus codec s.events = some x.encoded ∧
    (s.emissions.getLast?.map (·.event.sequence)) = some x.sequence

/-- An event that builds on what the client holds was chosen with its anchor retained, and on this
side of the last rebase. -/
def Anchored (e : Emission E D) : Prop :=
  e.event.IsSnapshot ∨ (e.anchor ∈ e.retained ∧ e.rebase ≤ e.anchor)

structure WriteInv (codec : DeltaCodec E D) (s : StatusSystem E D) : Prop where
  history : HistoryInv codec s.service s.log s.observed s.rebase
  held : ∀ i e, s.emissions[i]? = some e → ∃ x ∈ s.log, x.sequence = e.event.sequence ∧
    clientStatus codec ((s.emissions.take (i + 1)).map (·.event)) = some x.encoded
  increasing : (s.emissions.map (·.event.sequence)).Pairwise (· < ·)
  anchored : ∀ e ∈ s.emissions, Anchored e
  anchors : ∀ i e, s.emissions[i]? = some e →
    e.anchor = ((s.emissions.take i).getLast?.map (·.event.sequence)).getD s.reactor.after
  inFlight : s.reactor.writeFinish.writeInFlight = true →
    ∃ x ∈ s.log, s.reactor.writingSample = some x ∧ s.Sent codec x
  settled : s.reactor.writeFinish.writeInFlight = false →
    s.reactor.writeFinish.terminationRequested = false →
    (s.reactor.initialWritten = false ∧ s.emissions = []) ∨
    (s.reactor.initialWritten = true ∧ ∃ x ∈ s.log, s.reactor.previous = some x ∧
      s.reactor.cursor = x.sequence ∧ s.Sent codec x)
  running : s.wakeRunning = true → s.reactor.writeFinish.writeInFlight = false

variable {s : StatusSystem E D}

/-- Steps that write nothing: the log may grow, the reactor changes flags only. -/
theorem WriteInv.keeps {s' : StatusSystem E D} (h : WriteInv codec s)
    (hhistory : HistoryInv codec s'.service s'.log s'.observed s'.rebase)
    (hlog : s.log ⊆ s'.log) (hemissions : s'.emissions = s.emissions)
    (hkeeps : s.reactor.Keeps s'.reactor)
    (hrunning : s'.wakeRunning = true → s.reactor.writeFinish.writeInFlight = false) :
    WriteInv codec s' := by
  have hsent : ∀ x, s.Sent codec x → s'.Sent codec x := by
    intro x hx
    simpa only [Sent, events, hemissions] using hx
  refine ⟨hhistory, ?_, hemissions ▸ h.increasing, hemissions ▸ h.anchored, ?_, ?_, ?_, ?_⟩
  · intro i e he
    rw [hemissions] at he ⊢
    obtain ⟨x, hx, hxe⟩ := h.held i e he
    exact ⟨x, hlog hx, hxe⟩
  · rw [hemissions, hkeeps.after]
    exact h.anchors
  · intro hw
    rw [hkeeps.writeInFlight] at hw
    obtain ⟨x, hx, hwriting, hxsent⟩ := h.inFlight hw
    exact ⟨x, hlog hx, (hkeeps.writingSample hw).trans hwriting, hsent x hxsent⟩
  · intro hw ht
    rw [hkeeps.writeInFlight] at hw
    have ht' : s.reactor.writeFinish.terminationRequested = false := by
      cases hs : s.reactor.writeFinish.terminationRequested with
      | false => rfl
      | true => exact absurd (hkeeps.terminated hs) (by simp [ht])
    rw [hkeeps.initialWritten, hkeeps.previous, hkeeps.cursor, hemissions]
    rcases h.settled hw ht' with hnone | ⟨hinit, x, hx, hprev, hcursor, hxsent⟩
    · exact .inl hnone
    · exact .inr ⟨hinit, x, hlog hx, hprev, hcursor, hsent x hxsent⟩
  · intro hr
    rw [hkeeps.writeInFlight]
    exact hrunning hr

theorem clientStatus_concat (events : List (WatchStatusEvent E D)) (event : WatchStatusEvent E D) :
    clientStatus codec (events ++ [event]) = clientApply codec (clientStatus codec events) event := by
  simp [clientStatus]

theorem lt_of_getLast_lt {l : List ℕ} {n : ℕ} (h : l.Pairwise (· < ·))
    (hlast : ∀ x, l.getLast? = some x → x < n) : ∀ x ∈ l, x < n := by
  rcases List.eq_nil_or_concat' l with rfl | ⟨front, last, rfl⟩
  · simp
  · have hlt : last < n := hlast last (by simp)
    intro x hx
    rcases List.mem_append.mp hx with hx | hx
    · exact ((List.pairwise_append.mp h).2.2 x hx last (by simp)).trans hlt
    · rw [List.mem_singleton.mp hx]
      exact hlt

/-- One more event, from what the client holds to the newest sample. -/
theorem WriteInv.write (h : WriteInv codec s) {event : WatchStatusEvent E D} {w : DeferredWriteFinish}
    (hlatest : s.service.history.getLast? = some latest)
    (hw : s.reactor.writeFinish.tryStartWrite = some w)
    (hevent : s.reactor.composeEvent codec
      (selectStatusHistory s.service.history s.reactor.anchor !s.reactor.initialWritten) latest =
        some event) :
    WriteInv codec
      { s with
        wakeRunning := false
        reactor := { s.reactor with writingSample := some latest, writeFinish := w }
        emissions := s.emissions ++
          [⟨event, s.reactor.anchor, s.service.history.map (·.sequence), s.rebase⟩] } := by
  obtain ⟨hflight, hterm, rfl⟩ := DeferredWriteFinish.tryStartWrite_eq_some.mp hw
  have hmem : latest ∈ s.log := h.history.suffix.subset (List.mem_of_getLast? hlatest)
  have hle : ∀ x ∈ s.log, x.sequence ≤ latest.sequence := by
    intro x hx
    rw [h.history.numbered.sequence_getLast (h.history.history_getLast?.symm.trans hlatest)]
    exact (h.history.numbered.sequence_le hx).2
  -- what the composed event says, in the two phases of the stream
  have hfacts : event.sequence = latest.sequence ∧
      clientApply codec (clientStatus codec s.events) event = some latest.encoded ∧
      (∀ e, s.emissions.getLast? = some e → e.event.sequence < latest.sequence) ∧
      (event.IsSnapshot ∨ ∃ x ∈ s.service.history, x.sequence = s.reactor.anchor) ∧
      s.reactor.anchor = (s.emissions.getLast?.map (·.event.sequence)).getD s.reactor.after := by
    rcases h.settled hflight hterm with ⟨hinit, hnil⟩ | ⟨hinit, p, hp, hprev, hcursor, hsent⟩
    · obtain ⟨event', hevent', hseq, hclient, hanchor⟩ :=
        composeEvent_initial h.history hlatest hinit
      rw [hevent] at hevent'
      cases hevent'
      refine ⟨hseq, hclient _, by simp [hnil], hanchor, ?_⟩
      simp [hnil, StatusReactor.anchor, hinit]
    · have hlater := composeEvent_later h.history hlatest hinit hp hprev hcursor
      rw [hevent] at hlater
      obtain ⟨hseq, hne, hclient, hanchor⟩ := hlater
      refine ⟨hseq, by rw [hsent.1]; exact hclient, ?_, hanchor, ?_⟩
      · intro e he
        have hlast := hsent.2
        rw [he] at hlast
        have heq : e.event.sequence = p.sequence := Option.some.inj hlast
        have := hle p hp
        omega
      · rw [hsent.2]
        simp [StatusReactor.anchor, hinit, hcursor]
  obtain ⟨hseq, hclient, hlt, hanchor, hprior⟩ := hfacts
  set e' : Emission E D :=
    ⟨event, s.reactor.anchor, s.service.history.map (·.sequence), s.rebase⟩ with he'
  have hsent : clientStatus codec ((s.emissions ++ [e']).map (·.event)) = some latest.encoded := by
    rw [List.map_append, List.map_cons, List.map_nil, clientStatus_concat]
    exact hclient
  refine ⟨h.history, ?_, ?_, ?_, ?_, ?_, ?_, ?_⟩
  · intro i e he
    rcases getElem?_concat_cases he with ⟨hi, he⟩ | ⟨rfl, rfl⟩
    · rw [List.take_append_of_le_length (by omega)]
      exact h.held i e he
    · rw [List.take_of_length_le (by simp)]
      exact ⟨latest, hmem, hseq.symm, hsent⟩
  · rw [List.map_append, List.pairwise_append]
    refine ⟨h.increasing, List.pairwise_singleton _ _, ?_⟩
    intro a ha b hb
    rw [List.mem_singleton.mp hb]
    refine lt_of_getLast_lt h.increasing ?_ a ha
    intro x hx
    rw [List.getLast?_map, Option.map_eq_some_iff] at hx
    obtain ⟨e, he, rfl⟩ := hx
    exact (hlt e he).trans_eq hseq.symm
  · intro e he
    rcases List.mem_append.mp he with he | he
    · exact h.anchored e he
    · rw [List.mem_singleton.mp he]
      rcases hanchor with hsnap | ⟨x, hx, hxseq⟩
      · exact .inl hsnap
      · refine .inr ⟨List.mem_map.mpr ⟨x, hx, hxseq⟩, ?_⟩
        exact (h.history.rebased x hx).trans_eq hxseq
  · intro i e he
    rcases getElem?_concat_cases he with ⟨hi, he⟩ | ⟨rfl, rfl⟩
    · rw [List.take_append_of_le_length (by omega)]
      exact h.anchors i e he
    · rw [List.take_append_of_le_length le_rfl, List.take_length]
      exact hprior
  · intro _
    exact ⟨latest, hmem, rfl, hsent, by simp [he', hseq]⟩
  · intro hw
    exact absurd hw (by simp)
  · intro hr
    exact absurd hr (by simp)

/-- A completed write moves the reactor's base to the sample just sent. -/
theorem WriteInv.writeDone (h : WriteInv codec s) (hflight : s.reactor.writeFinish.writeInFlight = true)
    (ok accepted : Bool) :
    WriteInv codec { s with reactor := s.reactor.writeDone ok accepted } := by
  obtain ⟨hafter, hidle⟩ := s.reactor.writeDone_frame ok accepted
  rcases s.reactor.writeDone_spec ok accepted with hterm | ⟨-, hnext⟩
  · refine ⟨h.history, h.held, h.increasing, h.anchored, ?_, ?_, ?_, fun _ => hidle⟩
    · rw [hafter]
      exact h.anchors
    · intro hw
      exact absurd hw (by simp [hidle])
    · intro _ ht
      exact absurd ht (by simp [hterm])
  · obtain ⟨x, hx, hwriting, hsent⟩ := h.inFlight hflight
    set acked : StatusReactor E D :=
      { s.reactor with
        writeFinish := { s.reactor.writeFinish with writeInFlight := false }
        previous := s.reactor.writingSample
        cursor := (s.reactor.writingSample.map (·.sequence)).getD 0
        writingSample := none
        initialWritten := true } with hacked
    have hack : WriteInv codec { s with reactor := acked } := by
      refine { h with inFlight := ?_, settled := ?_, running := fun _ => rfl }
      · intro hw
        exact absurd hw (by simp [hacked])
      · intro _ _
        exact .inr ⟨rfl, x, hx, hwriting, by simp [hacked, hwriting], hsent⟩
    rw [hnext]
    exact hack.keeps h.history (List.Subset.refl _) rfl (StatusReactor.scheduleWake_spec _ _).1
      (fun _ => rfl)

end StatusSystem

end LinuxcncCtrl
