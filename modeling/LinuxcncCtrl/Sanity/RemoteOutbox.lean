import LinuxcncCtrl.Sanity.RemoteReactor
import LinuxcncCtrl.Spec.RemoteClient

/-! What a reactor does to the messages of its stream. A callback starts the write that is next in the
outbox, or keeps the outbox, or drops it; an offered message goes to the end, or is merged into the
delta there. -/

namespace LinuxcncCtrl

open Lib

variable {F : Type}

theorem clientValues_append (first second : List (HalComponentServerMessage F)) :
    clientValues (first ++ second) =
      second.foldl HalComponentServerMessage.receive (clientValues first) :=
  List.foldl_append

def HalComponentServerMessage.Distinct : HalComponentServerMessage F → Prop
  | .delta _ _ values => Lib.Distinct EncodedValue.key values
  | _ => True

namespace ComponentOutbox

theorem mergeValue_eq (values : List (EncodedValue F)) (incoming : EncodedValue F) :
    mergeValue values incoming = upsert EncodedValue.key values incoming := by
  induction values with
  | nil => rfl
  | cons value values ih =>
    have hsame : sameItem value incoming = true ↔ value.key = incoming.key := by
      simp [sameItem, EncodedValue.key]
    unfold mergeValue upsert
    simp only [hsame, ih]

theorem mergeDelta_eq (source target : List (EncodedValue F)) :
    mergeDelta source target = mergeInto EncodedValue.key source target := by
  unfold mergeDelta mergeInto
  congr 1
  funext values incoming
  exact mergeValue_eq values incoming

theorem receive_mergeDelta {target : List (EncodedValue F)}
    (h : Lib.Distinct EncodedValue.key target) (source : List (EncodedValue F))
    (client : ClientValues F) :
    putAll EncodedValue.key EncodedValue.value (mergeDelta source target) client =
      putAll EncodedValue.key EncodedValue.value source
        (putAll EncodedValue.key EncodedValue.value target client) := by
  rw [mergeDelta_eq, putAll_mergeInto h]

end ComponentOutbox

/-- A reactor as its messages see it: what was offered, what of it is queued and written, and whether
the stream goes on. -/
structure MessageFlow (F : Type) where
  written : List (HalComponentServerMessage F)
  outbox : List (OutboxEntry F)
  offered : List (OutboxEntry F)
  inFlight : Bool
  live : Prop

namespace MessageFlow

variable {flow flow' : MessageFlow F} {entry : OutboxEntry F}

def sent (flow : MessageFlow F) : List (HalComponentServerMessage F) :=
  flow.written ++ flow.outbox.map OutboxEntry.message

inductive Keeps (flow : MessageFlow F) : MessageFlow F → Prop
  | still (inFlight : Bool) (hflight : inFlight = flow.inFlight ∨ flow.outbox = []) :
      Keeps flow { flow with inFlight }
  | wrote (entry : OutboxEntry F) (rest : List (OutboxEntry F)) (hlive : flow.live)
      (houtbox : flow.outbox = entry :: rest) :
      Keeps flow
        { flow with
          written := flow.written ++ [entry.message]
          outbox := rest
          inFlight := true }
  | finished (outbox : List (OutboxEntry F)) (inFlight : Bool) {live : Prop} (hdead : ¬ live) :
      Keeps flow { flow with outbox, inFlight, live }

theorem keeps_refl (flow : MessageFlow F) : flow.Keeps flow :=
  .still flow.inFlight (.inl rfl)

inductive Offers (flow : MessageFlow F) : OutboxEntry F → MessageFlow F → Prop
  | refused (entry : OutboxEntry F) (hdead : ¬ flow.live) : Offers flow entry flow
  | started (entry : OutboxEntry F) (hlive : flow.live) (hidle : flow.inFlight = false) :
      Offers flow entry
        { flow with
          written := flow.written ++ [entry.message]
          offered := flow.offered ++ [entry]
          inFlight := true }
  | queued (entry : OutboxEntry F) (hlive : flow.live) (hflight : flow.inFlight = true) :
      Offers flow entry
        { flow with outbox := flow.outbox ++ [entry], offered := flow.offered ++ [entry] }
  | merged (front : List (OutboxEntry F)) (generation sequence generation' sequence' : ℕ)
      (queued values : List (EncodedValue F)) (resumeRead : Bool) (hlive : flow.live)
      (hflight : flow.inFlight = true)
      (hlast : flow.outbox = front ++ [⟨.delta generation sequence queued, resumeRead⟩]) :
      Offers flow ⟨.delta generation' sequence' values, false⟩
        { flow with
          outbox := front ++
            [⟨.delta generation' sequence' (ComponentOutbox.mergeDelta values queued), resumeRead⟩]
          offered := flow.offered ++ [⟨.delta generation' sequence' values, false⟩] }

structure Ordered (flow : MessageFlow F) : Prop where
  coalesced : ∃ rest, Coalesced (flow.offered.map OutboxEntry.message) (flow.written ++ rest) ∧
    (flow.live → rest = flow.outbox.map OutboxEntry.message)
  idle : flow.live → flow.inFlight = false → flow.outbox = []
  distinct : flow.live → ∀ entry ∈ flow.outbox, entry.message.Distinct
  responses : ∀ entry ∈ flow.offered, entry.resumeRead = !entry.message.isDelta

theorem ordered_unsent (inFlight : Bool) (live : Prop) :
    (⟨[], [], [], inFlight, live⟩ : MessageFlow F).Ordered :=
  ⟨⟨[], .nil, fun _ => rfl⟩, fun _ _ => rfl, fun _ => nofun, nofun⟩

theorem Ordered.keeps (h : flow.Ordered) (hkeeps : flow.Keeps flow') : flow'.Ordered := by
  obtain ⟨rest, hcoalesced, hrest⟩ := h.coalesced
  cases hkeeps with
  | still inFlight hflight =>
    refine { h with idle := fun hlive hidle => ?_ }
    rcases hflight with hsame | hempty
    · exact h.idle hlive (hsame.symm.trans hidle)
    · exact hempty
  | wrote entry rest' hlive houtbox =>
    have hqueued := hrest hlive
    rw [houtbox, List.map_cons] at hqueued
    refine ⟨⟨rest'.map OutboxEntry.message, ?_, fun _ => rfl⟩, nofun, fun _ other hother => ?_, h.responses⟩
    · rw [List.append_assoc, List.singleton_append, ← hqueued]
      exact hcoalesced
    · exact h.distinct hlive other (houtbox ▸ List.mem_cons_of_mem _ hother)
  | finished outbox inFlight hdead =>
    exact ⟨⟨rest, hcoalesced, fun hlive => absurd hlive hdead⟩, fun hlive => absurd hlive hdead,
      fun hlive => absurd hlive hdead, h.responses⟩

theorem Keeps.sent (h : flow.Keeps flow') (hlive : flow'.live) : flow.live ∧ flow'.sent = flow.sent := by
  cases h with
  | still inFlight _ => exact ⟨hlive, rfl⟩
  | wrote entry rest hbefore houtbox =>
    refine ⟨hbefore, ?_⟩
    unfold MessageFlow.sent
    rw [houtbox, List.map_cons, List.append_assoc, List.singleton_append]
  | finished outbox inFlight hdead => exact absurd hlive hdead

theorem Ordered.last_distinct (h : flow.Ordered) (hlive : flow.live)
    {front : List (OutboxEntry F)} {generation sequence : ℕ} {queued : List (EncodedValue F)}
    {resumeRead : Bool}
    (hlast : flow.outbox = front ++ [⟨.delta generation sequence queued, resumeRead⟩]) :
    Lib.Distinct EncodedValue.key queued :=
  h.distinct hlive ⟨.delta generation sequence queued, resumeRead⟩
    (hlast ▸ List.mem_append_right _ (List.mem_singleton_self _))

theorem Ordered.offers (h : flow.Ordered) (hoffers : flow.Offers entry flow')
    (hdistinct : entry.message.Distinct) (hresponse : entry.resumeRead = !entry.message.isDelta) :
    flow'.Ordered := by
  have hresponses : ∀ other ∈ flow.offered ++ [entry], other.resumeRead = !other.message.isDelta := by
    intro other hother
    rcases List.mem_append.mp hother with hbefore | hnew
    · exact h.responses other hbefore
    · rw [List.mem_singleton.mp hnew]
      exact hresponse
  obtain ⟨rest, hcoalesced, hrest⟩ := h.coalesced
  cases hoffers with
  | refused _ _ => exact h
  | started _ hlive hidle =>
    have hempty := h.idle hlive hidle
    rw [hrest hlive, hempty, List.map_nil, List.append_nil] at hcoalesced
    refine ⟨⟨[], ?_, fun _ => ?_⟩, nofun, fun _ => ?_, hresponses⟩
    · rw [List.map_append, List.append_nil]
      exact .message _ hcoalesced
    · rw [hempty]
      rfl
    · rw [hempty]
      exact nofun
  | queued _ hlive hflight =>
    rw [hrest hlive] at hcoalesced
    refine ⟨⟨_, ?_, fun _ => rfl⟩, fun _ hidle => ?_, fun _ other hother => ?_, hresponses⟩
    · rw [List.map_append, List.map_append, ← List.append_assoc]
      exact .message _ hcoalesced
    · cases hflight.symm.trans hidle
    · rcases List.mem_append.mp hother with hbefore | hnew
      · exact h.distinct hlive other hbefore
      · rw [List.mem_singleton.mp hnew]
        exact hdistinct
  | merged front generation sequence generation' sequence' queued values resumeRead hlive hflight hlast =>
    rw [hrest hlive, hlast, List.map_append, ← List.append_assoc] at hcoalesced
    refine ⟨⟨_, ?_, fun _ => rfl⟩, fun _ hidle => ?_, fun _ other hother => ?_, hresponses⟩
    · rw [List.map_append, List.map_append, ← List.append_assoc]
      exact .merged generation' sequence' values hcoalesced
    · cases hflight.symm.trans hidle
    · rcases List.mem_append.mp hother with hbefore | hnew
      · exact h.distinct hlive other (hlast ▸ List.mem_append_left _ hbefore)
      · rw [List.mem_singleton.mp hnew]
        change Lib.Distinct EncodedValue.key (ComponentOutbox.mergeDelta values queued)
        rw [ComponentOutbox.mergeDelta_eq]
        exact (h.last_distinct hlive hlast).mergeInto values

/-- What is sent after an offer leads the client to where the offered message would. -/
theorem Offers.clientValues (hoffers : flow.Offers entry flow') (h : flow.Ordered) (hlive : flow'.live) :
    flow.live ∧ clientValues flow'.sent =
      HalComponentServerMessage.receive (clientValues flow.sent) entry.message := by
  unfold MessageFlow.sent
  cases hoffers with
  | refused _ hdead => exact absurd hlive hdead
  | started _ _ hidle =>
    refine ⟨hlive, ?_⟩
    rw [h.idle hlive hidle, List.map_nil, List.append_nil, List.append_nil, clientValues_append]
    rfl
  | queued _ _ _ =>
    refine ⟨hlive, ?_⟩
    rw [List.map_append, ← List.append_assoc, clientValues_append]
    rfl
  | merged front generation sequence generation' sequence' queued values resumeRead _ _ hlast =>
    refine ⟨hlive, ?_⟩
    rw [hlast, List.map_append, List.map_append, ← List.append_assoc, ← List.append_assoc,
      clientValues_append, clientValues_append (flow.written ++ _)]
    exact ComponentOutbox.receive_mergeDelta (h.last_distinct hlive hlast) values _

end MessageFlow

namespace Reactor

def flow (reactor : Reactor F) : MessageFlow F :=
  ⟨reactor.written, reactor.outbox, reactor.offered, reactor.writeFinish.writeInFlight, reactor.Live⟩

variable {reactor reactor₀ : Reactor F}

theorem not_live_of_requested (hrequested : reactor.writeFinish.terminationRequested = true) :
    ¬ reactor.Live :=
  fun hlive => absurd (hrequested.symm.trans hlive.2) nofun

theorem requestFinish_dead (reactor : Reactor F) (status : GrpcStatus) :
    ¬ (reactor.requestFinish status).Live := by
  obtain ⟨gate, writeFinish, heq, -, hrequested, -⟩ := requestFinish_eq reactor status
  rw [heq]
  exact not_live_of_requested hrequested

theorem requestFinish_keeps (hwritten : reactor₀.written = reactor.written)
    (hoffered : reactor₀.offered = reactor.offered) (status : GrpcStatus) :
    reactor.flow.Keeps (reactor₀.requestFinish status).flow := by
  have hdead := requestFinish_dead reactor₀ status
  obtain ⟨gate, writeFinish, heq, -⟩ := requestFinish_eq reactor₀ status
  rw [heq] at hdead ⊢
  rw [hwritten, hoffered]
  exact .finished [] writeFinish.writeInFlight hdead

theorem terminate_keeps (reactor : Reactor F) (executor : BoundedExecutor (HalTask F))
    (status : GrpcStatus) : reactor.flow.Keeps (reactor.terminate executor status).1.flow := by
  unfold terminate detachTransport
  split_ifs
  · exact requestFinish_keeps (by rfl) (by rfl) status
  · exact requestFinish_keeps (by rfl) (by rfl) status

theorem tick_keeps (reactor : Reactor F) (expired : Bool) :
    reactor.flow.Keeps (reactor.tick expired).flow := by
  unfold tick
  split_ifs
  · exact requestFinish_keeps (by rfl) (by rfl) _
  · exact reactor.flow.keeps_refl

theorem heartbeatTimeout_keeps (reactor : Reactor F) (generation : ℕ) :
    reactor.flow.Keeps (reactor.heartbeatTimeout generation).flow := by
  unfold heartbeatTimeout
  split_ifs
  · exact requestFinish_keeps (by rfl) (by rfl) _
  · exact reactor.flow.keeps_refl

theorem readDone_keeps (reactor : Reactor F) (executor : BoundedExecutor (HalTask F)) (stream : ℕ)
    (request : Option (HalComponentClientMessage F)) :
    reactor.flow.Keeps ({ reactor with reading := false }.readDone executor stream request).1.flow := by
  unfold readDone
  split_ifs
  · exact reactor.flow.keeps_refl
  · cases request with
    | none => exact terminate_keeps { reactor with reading := false } executor _
    | some request =>
      dsimp only
      split
      next => exact reactor.flow.keeps_refl
      next => exact requestFinish_keeps (by rfl) (by rfl) _

section

variable (hopen : reactor.gate = .opened)

include hopen

theorem writeDone_keeps (hstarted : reactor.writeFinish.finishStarted = false) (ok : Bool) :
    reactor.flow.Keeps (reactor.writeDone ok).flow := by
  generalize hdone : reactor.writeDone ok = completed
  have hcases := hdone ▸ writeDone_writeDone hstarted ok
  cases hcases with
  | finished gate writeFinish _ hrequested _ _ =>
    exact .finished _ _ (not_live_of_requested hrequested)
  | next entry rest houtbox hrequested => exact .wrote entry rest ⟨hopen, hrequested⟩ houtbox
  | closing status resume _ _ => exact requestFinish_keeps (by rfl) (by rfl) status
  | read houtbox _ _ => exact .still false (.inr houtbox)
  | idle houtbox _ _ => exact .still false (.inr houtbox)

theorem startWrite_offers (hrequested : ¬ reactor.writeFinish.terminationRequested = true)
    (hflight : ¬ reactor.writeFinish.writeInFlight = true) (entry : OutboxEntry F) :
    reactor.flow.Offers entry
      ({ reactor with offered := reactor.offered ++ [entry] }.startWrite entry).flow := by
  have hrequested := Bool.eq_false_of_not_eq_true hrequested
  have hidle := Bool.eq_false_of_not_eq_true hflight
  rw [startWrite_eq]
  · exact .started entry ⟨hopen, hrequested⟩ hidle
  · exact hidle
  · exact hrequested

theorem offerDelta_offers (message : HalComponentServerMessage F) :
    reactor.flow.Offers ⟨message, false⟩ (reactor.offerDelta message).flow := by
  unfold offerDelta
  dsimp only
  split_ifs with hrequested hflight
  · exact .refused _ (not_live_of_requested hrequested)
  · have hlive : reactor.Live := ⟨hopen, Bool.eq_false_of_not_eq_true hrequested⟩
    unfold ComponentOutbox.pushDelta
    split
    next generation' sequence' values generation sequence queued resumeRead hlast =>
      obtain ⟨front, hfront⟩ := List.getLast?_eq_some_iff.mp hlast
      have hmerged := @MessageFlow.Offers.merged F reactor.flow front generation sequence generation'
        sequence' queued values resumeRead hlive hflight hfront
      rw [hfront, List.dropLast_concat]
      exact hmerged
    next => exact .queued _ hlive hflight
  · exact startWrite_offers hopen hrequested hflight _

theorem offerResponse_offers (message : HalComponentServerMessage F) :
    reactor.flow.Offers ⟨message, true⟩ (reactor.offerResponse message).flow := by
  unfold offerResponse
  dsimp only
  split_ifs with hrequested hflight
  · exact .refused _ (not_live_of_requested hrequested)
  · exact .queued _ ⟨hopen, Bool.eq_false_of_not_eq_true hrequested⟩ hflight
  · exact startWrite_offers hopen hrequested hflight _

theorem deliver_offers (executor : BoundedExecutor (HalTask F)) (result : RemoteComponentResult F) :
    (∃ response ∈ result.response,
      reactor.flow.Offers ⟨response, true⟩ (reactor.deliver executor result).1.flow) ∨
    (result.response = none ∨ ¬ (reactor.deliver executor result).1.Live) ∧
      reactor.flow.Keeps (reactor.deliver executor result).1.flow := by
  obtain ⟨proxyId, generation, hhandle⟩ := setHandle_eq reactor result
  unfold deliver
  rw [hhandle]
  dsimp only
  split
  next => exact .inr ⟨.inr (requestFinish_dead _ _), terminate_keeps reactor executor result.status⟩
  next =>
    split
    next response hresponse =>
      refine .inl ⟨response, hresponse, ?_⟩
      have hoffers := offerResponse_offers
        (show ({ reactor with proxyId, generation } : Reactor F).gate = .opened from hopen) response
      split_ifs
      · exact hoffers
      · exact hoffers
    next hnone =>
      refine .inr ⟨.inl hnone, ?_⟩
      split_ifs
      · exact requestFinish_keeps (by rfl) (by rfl) _
      · exact reactor.flow.keeps_refl
      · exact reactor.flow.keeps_refl

end

end Reactor

end LinuxcncCtrl
