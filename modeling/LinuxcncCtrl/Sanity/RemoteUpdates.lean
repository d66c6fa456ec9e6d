import LinuxcncCtrl.Proofs.RemoteComponent
import LinuxcncCtrl.Sanity.RemoteAttachment

/-! The accepted updates of remote components. An update raises the sequence of its proxy by one, an
attachment starts the sequences anew, and no other operation on the HAL worker touches them. -/

namespace LinuxcncCtrl

open Lib

variable {F σ : Type}

namespace Proxy

variable {proxy : Proxy F σ}

/-- What tells the updates of a proxy from all others, and the number of the last one. -/
def stamp (proxy : Proxy F σ) : HalName × ℕ × ℕ × ℕ :=
  (proxy.id, proxy.incarnation, proxy.generation, proxy.clientSequence)

theorem Inv.stamp_detached (h : proxy.Inv) : proxy.detached.stamp = proxy.stamp := by
  rw [detached_eq h.schema]
  rfl

theorem stamp_heartbeat (proxy : Proxy F σ) (now : ℤ) (generation : ℕ) :
    (proxy.heartbeat now generation).1.stamp = proxy.stamp := by
  unfold Proxy.heartbeat
  split_ifs <;> rfl

theorem Inv.stamp_sample [BEq F] (h : proxy.Inv) (config : RegistryConfig) (calls : HalCalls F) (now : ℤ) :
    (proxy.sample config calls now).1.stamp = proxy.stamp := by
  unfold Proxy.sample
  dsimp only
  split_ifs
  · rfl
  · exact h.stamp_detached
  · rfl
  · rfl
  · rfl

end Proxy

namespace Registry

variable {registry registry' registry'' : Registry F σ} {config : RegistryConfig}

/-- No proxy is attached anew and none has accepted an update. -/
structure Unmoved (registry registry' : Registry F σ) : Prop where
  created : registry'.created = registry.created
  stamps : ∀ id proxy', registry'.proxies.lookup id = some proxy' →
    ∃ proxy, registry.proxies.lookup id = some proxy ∧ proxy'.stamp = proxy.stamp

theorem Unmoved.refl (registry : Registry F σ) : registry.Unmoved registry :=
  ⟨rfl, fun _ proxy hlookup => ⟨proxy, hlookup, rfl⟩⟩

theorem Unmoved.trans (h : registry.Unmoved registry') (h' : registry'.Unmoved registry'') :
    registry.Unmoved registry'' := by
  refine ⟨h'.created.trans h.created, fun id proxy'' hlookup'' => ?_⟩
  obtain ⟨proxy', hlookup', hstamp'⟩ := h'.stamps id proxy'' hlookup''
  obtain ⟨proxy, hlookup, hstamp⟩ := h.stamps id proxy' hlookup'
  exact ⟨proxy, hlookup, hstamp'.trans hstamp⟩

variable {id : HalName} {proxy : Proxy F σ}

theorem Sound.unmoved_setProxy (h : registry.Sound) {proxy' : Proxy F σ}
    (hlookup : registry.proxies.lookup id = some proxy) (hstamp : proxy'.stamp = proxy.stamp) :
    registry.Unmoved (registry.setProxy proxy') := by
  have hkeyed : registry.Keyed := fun id proxy hlookup => (h id proxy hlookup).1
  exact ⟨rfl, related_setProxy (fun _ => rfl) hkeyed hlookup (congrArg Prod.fst hstamp) hstamp⟩

theorem Sound.unmoved_detach (h : registry.Sound) (id : HalName) (generation : ℕ) :
    registry.Unmoved (registry.detach id generation) := by
  obtain hsame | ⟨proxy, hlookup, hset⟩ := registry.detach_cases id generation
  · rw [hsame]
    exact .refl registry
  · rw [hset]
    exact h.unmoved_setProxy hlookup (h id proxy hlookup).2.stamp_detached

theorem Sound.unmoved_close (h : registry.Sound)
    (hlookup : registry.proxies.lookup id = some proxy) (generation : ℕ)
    (mode : Option HalComponentCloseMode) : registry.Unmoved (registry.close proxy generation mode).1 := by
  unfold Registry.close
  split
  next mode _ =>
    cases mode with
    | detach => exact h.unmoved_setProxy hlookup (h id proxy hlookup).2.stamp_detached
    | destroy =>
      refine ⟨rfl, fun other found hfound => ?_⟩
      rw [lookup_erase] at hfound
      split_ifs at hfound
      exact ⟨found, hfound, rfl⟩
  next => exact .refl registry

theorem Sound.unmoved_sampleIds [BEq F] (config : RegistryConfig) (calls : HalCalls F) (now : ℤ)
    (ids : List HalName) (h : registry.Sound) :
    registry.Unmoved (Registry.sampleIds config calls now ids registry).1 := by
  induction ids generalizing registry with
  | nil => exact .refl registry
  | cons id ids ih =>
    unfold Registry.sampleIds
    split
    next => exact ih h
    next proxy hlookup =>
      have hproxy := (h id proxy hlookup).2
      have hfirst := h.unmoved_setProxy hlookup (hproxy.stamp_sample config calls now)
      exact hfirst.trans (ih (h.setProxy (hproxy.sample config calls now)))

theorem acceptedUpdate_none {inputs : RegistryInputs F} {attachedId : HalName} {attachedGeneration : ℕ}
    {stream : σ} {request : HalComponentClientMessage F}
    (h : ∀ generation sequence,
      (registry.consume config inputs attachedId attachedGeneration stream request).2.response ≠
        some (.updateAck generation sequence)) :
    registry.acceptedUpdate config (.consume inputs attachedId attachedGeneration stream request) = none := by
  unfold acceptedUpdate
  dsimp only
  split
  next generation sequence _ hresponse _ => exact absurd hresponse (h generation sequence)
  next => rfl

end Registry

namespace UpdateHistory

variable {history history' : UpdateHistory F σ} {config : RegistryConfig} {action : RegistryAction F σ}

/-- What one operation can do to the proxies and the record of updates. -/
inductive Turn (history : UpdateHistory F σ) : UpdateHistory F σ → Prop
  | unmoved (registry : Registry F σ) : history.registry.Unmoved registry →
      Turn history { history with registry }
  | attached (registry : Registry F σ) (proxy : Proxy F σ) :
      (∀ id, registry.proxies.lookup id =
        if id = proxy.id then some proxy else history.registry.proxies.lookup id) →
      proxy.id ≠ [] → proxy.clientSequence = 0 →
      (proxy.incarnation = history.registry.created ∧ registry.created = history.registry.created + 1) ∨
        (∃ before, history.registry.proxies.lookup proxy.id = some before ∧
          before.incarnation = proxy.incarnation ∧ proxy.generation = before.generation + 1 ∧
          registry.created = history.registry.created) →
      Turn history { history with registry }
  | acknowledged (proxy proxy' : Proxy F σ) : history.registry.proxies.lookup proxy.id = some proxy →
      proxy'.stamp = (proxy.id, proxy.incarnation, proxy.generation, proxy.clientSequence + 1) →
      Turn history
        { registry := history.registry.setProxy proxy'
          accepted := history.accepted ++
            [{ proxy with sequence := proxy.clientSequence + 1 }] }

variable {registry : Registry F σ}

theorem Turn.of_unmoved (h : history.registry.Unmoved registry) :
    history.Turn { registry, accepted := history.accepted ++ (none : Option AcceptedUpdate).toList } := by
  rw [Option.toList_none, List.append_nil]
  exact .unmoved registry h

theorem turn_of_consume (hsound : history.registry.Sound)
    (hnamed : ∀ id proxy, history.registry.proxies.lookup id = some proxy → id ≠ [])
    (inputs : RegistryInputs F) (hid : inputs.proxyId ≠ []) (attachedId : HalName)
    (attachedGeneration : ℕ) (stream : σ) (request : HalComponentClientMessage F) :
    history.Turn
      { registry :=
          (history.registry.consume config inputs attachedId attachedGeneration stream request).1
        accepted := history.accepted ++ (history.registry.acceptedUpdate config
          (.consume inputs attachedId attachedGeneration stream request)).toList } := by
  have hnone : (∀ generation sequence,
      (history.registry.consume config inputs attachedId attachedGeneration stream request).2.response ≠
        some (.updateAck generation sequence)) →
      history.accepted ++ (history.registry.acceptedUpdate config
        (.consume inputs attachedId attachedGeneration stream request)).toList = history.accepted := by
    intro hresponse
    rw [Registry.acceptedUpdate_none hresponse]
    exact List.append_nil _
  generalize hresult :
    history.registry.consume config inputs attachedId attachedGeneration stream request = consumed at *
  have hconsumed := hresult ▸ Registry.consume_consumed
  cases hconsumed with
  | refused slab admission status _ =>
    rw [hnone nofun]
    exact .unmoved _ ⟨rfl, (Registry.Unmoved.refl history.registry).stamps⟩
  | created create definitions component namePrefix slab admission _ hschema hbuild _ =>
    rw [hnone nofun]
    exact .attached _ (history.registry.createdProxy config inputs stream create component namePrefix
      definitions).1 (fun id => Registry.lookup_setProxy _ _ id) hid rfl (.inl ⟨rfl, rfl⟩)
  | attached proxy id _ hlookup _ =>
    obtain rfl := (hsound id proxy hlookup).1
    rw [hnone nofun]
    exact .attached _ (Registry.attachedProxy config inputs stream proxy).1
      (fun id => Registry.lookup_setProxy _ _ id) (hnamed _ _ hlookup) rfl
      (.inr ⟨proxy, hlookup, rfl, rfl, rfl⟩)
  | dispatched proxy _ hcurrent =>
    obtain ⟨hlookup, hattached, -⟩ := hcurrent
    obtain ⟨rfl, hproxy⟩ := hsound attachedId proxy hlookup
    cases request with
    | activate generation values =>
      have hanswered := hproxy.activate_answered inputs.now values generation
      unfold Registry.dispatch at hnone ⊢
      dsimp only at hnone ⊢
      generalize proxy.activate inputs.now generation values = answer at *
      cases hanswered with
      | refused status _ =>
        rw [hnone nofun]
        exact .unmoved _ (hsound.unmoved_setProxy hlookup rfl)
      | accepted decoded _ =>
        rw [hnone nofun]
        exact .unmoved _ (hsound.unmoved_setProxy hlookup rfl)
    | update generation sequence values =>
      have hanswered := hproxy.update_answered inputs.now values generation sequence
      unfold Registry.dispatch at hresult hnone ⊢
      dsimp only at hresult hnone ⊢
      generalize proxy.update inputs.now generation sequence values = answer at *
      cases hanswered with
      | refused status _ =>
        rw [hnone nofun]
        exact .unmoved _ (hsound.unmoved_setProxy hlookup rfl)
      | accepted decoded _ =>
        have haccepted : history.registry.acceptedUpdate config
            (.consume inputs proxy.id attachedGeneration stream (.update generation sequence values)) =
              some { proxy with sequence := proxy.clientSequence + 1 } := by
          unfold Registry.acceptedUpdate
          dsimp only
          rw [hresult, hlookup]
        rw [haccepted]
        exact .acknowledged proxy _ hlookup rfl
    | heartbeat generation =>
      rw [hnone]
      · exact .unmoved _ (hsound.unmoved_setProxy hlookup (Proxy.stamp_heartbeat _ _ _))
      · unfold Registry.dispatch Proxy.heartbeat
        dsimp only
        split_ifs <;> nofun
    | close generation mode =>
      rw [hnone]
      · exact .unmoved _ (hsound.unmoved_close hlookup generation mode)
      · unfold Registry.dispatch Registry.close
        dsimp only
        split
        next mode _ => cases mode <;> nofun
        next => nofun
    | create message =>
      rw [hnone nofun]
      exact .unmoved _ (.refl _)
    | attach message =>
      rw [hnone nofun]
      exact .unmoved _ (.refl _)
    | notSet =>
      rw [hnone nofun]
      exact .unmoved _ (.refl _)

/-- The record fits the proxies: none of a proxy's updates is of a later generation than its own, and
those of its own generation are numbered up to its last sequence. -/
structure Ordered (history : UpdateHistory F σ) : Prop where
  sound : history.registry.Sound
  named : ∀ id proxy, history.registry.proxies.lookup id = some proxy → id ≠ []
  created : ∀ id proxy, history.registry.proxies.lookup id = some proxy →
    proxy.incarnation < history.registry.created
  distinct : ∀ id proxy id' proxy', history.registry.proxies.lookup id = some proxy →
    history.registry.proxies.lookup id' = some proxy' → proxy.incarnation = proxy'.incarnation → id = id'
  earlier : ∀ update ∈ history.accepted, update.incarnation < history.registry.created
  reached : ∀ update ∈ history.accepted, ∀ id proxy, history.registry.proxies.lookup id = some proxy →
    proxy.incarnation = update.incarnation → update.generation ≤ proxy.generation
  current : ∀ id proxy, history.registry.proxies.lookup id = some proxy →
    history.sequences proxy.incarnation proxy.generation = List.range' 1 proxy.clientSequence
  numbered : ∀ incarnation generation, ∃ count,
    history.sequences incarnation generation = List.range' 1 count

theorem sequences_nil {incarnation generation : ℕ}
    (h : ∀ update ∈ history.accepted, update.incarnation = incarnation → update.generation ≠ generation) :
    history.sequences incarnation generation = [] := by
  unfold sequences
  rw [List.map_eq_nil_iff, List.filter_eq_nil_iff]
  intro update hupdate hsame
  obtain ⟨hincarnation, hgeneration⟩ := of_decide_eq_true hsame
  exact h update hupdate hincarnation hgeneration

theorem sequences_append (registry : Registry F σ) (update : AcceptedUpdate) (incarnation generation : ℕ) :
    sequences { registry, accepted := history.accepted ++ [update] } incarnation generation =
      history.sequences incarnation generation ++
        if update.incarnation = incarnation ∧ update.generation = generation then [update.sequence]
        else [] := by
  unfold sequences
  rw [List.filter_append, List.map_append]
  congr 1
  by_cases hsame : update.incarnation = incarnation ∧ update.generation = generation
  · simp [hsame]
  · simp [hsame]

theorem Ordered.empty (admission : AdmissionCounter) (slab : HalAllocationSlab) :
    Ordered ({ registry := { admission, slab } } : UpdateHistory F σ) := by
  refine ⟨?_, ?_, ?_, ?_, ?_, ?_, ?_, fun incarnation generation => ⟨0, rfl⟩⟩
  · intro id proxy hlookup
    cases hlookup
  · intro id proxy hlookup
    cases hlookup
  · intro id proxy hlookup
    cases hlookup
  · intro id proxy id' proxy' hlookup
    cases hlookup
  · intro update hupdate
    cases hupdate
  · intro update hupdate
    cases hupdate
  · intro id proxy hlookup
    cases hlookup

variable {proxy : Proxy F σ}

theorem Ordered.attached (h : history.Ordered) (hsound : registry.Sound)
    (hregistry : ∀ id, registry.proxies.lookup id =
      if id = proxy.id then some proxy else history.registry.proxies.lookup id)
    (hid : proxy.id ≠ []) (hsequence : proxy.clientSequence = 0)
    (hcreated : history.registry.created ≤ registry.created)
    (hincarnation : proxy.incarnation < registry.created)
    (hother : ∀ id other, history.registry.proxies.lookup id = some other → id ≠ proxy.id →
      other.incarnation ≠ proxy.incarnation)
    (hnext : ∀ update ∈ history.accepted, update.incarnation = proxy.incarnation →
      update.generation < proxy.generation) :
    Ordered { history with registry } where
  sound := hsound
  named id found hlookup := by
    rw [hregistry] at hlookup
    split_ifs at hlookup with heq
    · exact heq ▸ hid
    · exact h.named id found hlookup
  created id found hlookup := by
    rw [hregistry] at hlookup
    split_ifs at hlookup
    · exact Option.some.inj hlookup ▸ hincarnation
    · exact (h.created id found hlookup).trans_le hcreated
  distinct id found id' found' hlookup hlookup' hsame := by
    rw [hregistry] at hlookup hlookup'
    split_ifs at hlookup hlookup' with heq heq'
    · rw [heq, heq']
    · rw [← Option.some.inj hlookup] at hsame
      exact absurd hsame.symm (hother id' found' hlookup' heq')
    · rw [← Option.some.inj hlookup'] at hsame
      exact absurd hsame (hother id found hlookup heq)
    · exact h.distinct id found id' found' hlookup hlookup' hsame
  earlier update hupdate := (h.earlier update hupdate).trans_le hcreated
  reached update hupdate id found hlookup hsame := by
    rw [hregistry] at hlookup
    split_ifs at hlookup
    · cases hlookup
      exact (hnext update hupdate hsame.symm).le
    · exact h.reached update hupdate id found hlookup hsame
  current id found hlookup := by
    rw [hregistry] at hlookup
    split_ifs at hlookup
    · cases hlookup
      rw [hsequence]
      exact sequences_nil fun update hupdate hsame => (hnext update hupdate hsame).ne
    · exact h.current id found hlookup
  numbered := h.numbered

theorem Ordered.unmoved (h : history.Ordered) (hsound : registry.Sound)
    (hunmoved : history.registry.Unmoved registry) : Ordered { history with registry } := by
  have hbefore : ∀ id found, registry.proxies.lookup id = some found →
      ∃ proxy, history.registry.proxies.lookup id = some proxy ∧ found.incarnation = proxy.incarnation ∧
        found.generation = proxy.generation ∧ found.clientSequence = proxy.clientSequence := by
    intro id found hlookup
    obtain ⟨proxy, hproxy, hstamp⟩ := hunmoved.stamps id found hlookup
    obtain ⟨-, hincarnation, hgeneration, hsequence⟩ : _ ∧ _ ∧ _ ∧ _ := by
      simpa only [Proxy.stamp, Prod.mk.injEq] using hstamp
    exact ⟨proxy, hproxy, hincarnation, hgeneration, hsequence⟩
  refine ⟨hsound, ?_, ?_, ?_, ?_, ?_, ?_, h.numbered⟩
  · intro id found hlookup
    obtain ⟨proxy, hproxy, -⟩ := hbefore id found hlookup
    exact h.named id proxy hproxy
  · intro id found hlookup
    obtain ⟨proxy, hproxy, hincarnation, -⟩ := hbefore id found hlookup
    rw [hincarnation, hunmoved.created]
    exact h.created id proxy hproxy
  · intro id found id' found' hlookup hlookup' hsame
    obtain ⟨proxy, hproxy, hincarnation, -⟩ := hbefore id found hlookup
    obtain ⟨proxy', hproxy', hincarnation', -⟩ := hbefore id' found' hlookup'
    rw [hincarnation, hincarnation'] at hsame
    exact h.distinct id proxy id' proxy' hproxy hproxy' hsame
  · intro update hupdate
    rw [hunmoved.created]
    exact h.earlier update hupdate
  · intro update hupdate id found hlookup hsame
    obtain ⟨proxy, hproxy, hincarnation, hgeneration, -⟩ := hbefore id found hlookup
    rw [hgeneration]
    exact h.reached update hupdate id proxy hproxy (hincarnation ▸ hsame)
  · intro id found hlookup
    obtain ⟨proxy, hproxy, hincarnation, hgeneration, hsequence⟩ := hbefore id found hlookup
    rw [hincarnation, hgeneration, hsequence]
    exact h.current id proxy hproxy

theorem Ordered.acknowledged (h : history.Ordered) {proxy' : Proxy F σ}
    (hproxy : history.registry.proxies.lookup proxy.id = some proxy)
    (hstamp : proxy'.stamp = (proxy.id, proxy.incarnation, proxy.generation, proxy.clientSequence + 1))
    (hsound : (history.registry.setProxy proxy').Sound) :
    Ordered
      { registry := history.registry.setProxy proxy'
        accepted := history.accepted ++
          [{ proxy with sequence := proxy.clientSequence + 1 }] } := by
  obtain ⟨hid, hincarnation, hgeneration, hsequence⟩ : _ ∧ _ ∧ _ ∧ _ := by
    simpa only [Proxy.stamp, Prod.mk.injEq] using hstamp
  have hextended : history.sequences proxy.incarnation proxy.generation ++ [proxy.clientSequence + 1] =
      List.range' 1 (proxy.clientSequence + 1) := by
    rw [h.current proxy.id proxy hproxy, List.range'_1_concat, Nat.add_comm 1]
  -- every proxy found now was there before, with its incarnation and generation
  have hbefore : ∀ id found, (history.registry.setProxy proxy').proxies.lookup id = some found →
      (id = proxy.id ∧ found = proxy') ∨
        (id ≠ proxy.id ∧ history.registry.proxies.lookup id = some found) := by
    intro id found hlookup
    rw [Registry.lookup_setProxy, hid] at hlookup
    split_ifs at hlookup with heq
    · exact .inl ⟨heq, (Option.some.inj hlookup).symm⟩
    · exact .inr ⟨heq, hlookup⟩
  refine ⟨hsound, ?_, ?_, ?_, ?_, ?_, ?_, ?_⟩
  · intro id found hlookup
    rcases hbefore id found hlookup with ⟨rfl, -⟩ | ⟨-, hfound⟩
    · exact h.named _ proxy hproxy
    · exact h.named id found hfound
  · intro id found hlookup
    rcases hbefore id found hlookup with ⟨-, rfl⟩ | ⟨-, hfound⟩
    · exact hincarnation ▸ h.created _ proxy hproxy
    · exact h.created id found hfound
  · intro id found id' found' hlookup hlookup' hsame
    rcases hbefore id found hlookup with ⟨rfl, rfl⟩ | ⟨hne, hfound⟩ <;>
      rcases hbefore id' found' hlookup' with ⟨rfl, rfl⟩ | ⟨hne', hfound'⟩
    · rfl
    · exact h.distinct _ proxy id' found' hproxy hfound' (hincarnation ▸ hsame)
    · exact h.distinct id found _ proxy hfound hproxy (hincarnation ▸ hsame)
    · exact h.distinct id found id' found' hfound hfound' hsame
  · intro update hupdate
    rcases List.mem_append.mp hupdate with hupdate | hupdate
    · exact h.earlier update hupdate
    · rw [List.mem_singleton.mp hupdate]
      exact h.created _ proxy hproxy
  · intro update hupdate id found hlookup hsame
    rcases List.mem_append.mp hupdate with hearlier | hlast
    · rcases hbefore id found hlookup with ⟨rfl, rfl⟩ | ⟨-, hfound⟩
      · rw [hgeneration]
        exact h.reached update hearlier _ proxy hproxy (hincarnation ▸ hsame)
      · exact h.reached update hearlier id found hfound hsame
    · obtain rfl := List.mem_singleton.mp hlast
      rcases hbefore id found hlookup with ⟨rfl, rfl⟩ | ⟨hne, hfound⟩
      · exact hgeneration.ge
      · exact absurd (h.distinct id found _ proxy hfound hproxy hsame) hne
  · intro id found hlookup
    rw [sequences_append]
    rcases hbefore id found hlookup with ⟨rfl, rfl⟩ | ⟨hne, hfound⟩
    · rw [hincarnation, hgeneration, hsequence, if_pos ⟨rfl, rfl⟩]
      exact hextended
    · rw [if_neg, List.append_nil]
      · exact h.current id found hfound
      · rintro ⟨hsame, -⟩
        exact hne (h.distinct id found _ proxy hfound hproxy hsame.symm)
  · intro incarnation generation
    rw [sequences_append]
    split_ifs with hsame
    · obtain ⟨rfl, rfl⟩ := hsame
      exact ⟨_, hextended⟩
    · rw [List.append_nil]
      exact h.numbered incarnation generation

theorem Ordered.turn (h : history.Ordered) (hturn : history.Turn history')
    (hsound : history'.registry.Sound) : history'.Ordered := by
  cases hturn with
  | unmoved registry hunmoved => exact h.unmoved hsound hunmoved
  | attached registry proxy hregistry hid hsequence horigin =>
    rcases horigin with ⟨hincarnation, hcreated⟩ | ⟨before, hbefore, hsame, hgeneration, hcreated⟩
    · -- a new proxy, with the next incarnation
      refine h.attached hsound hregistry hid hsequence (by omega) (by omega) ?_ ?_
      · intro id other hlookup _
        have hlt := h.created id other hlookup
        omega
      · intro update hupdate heq
        have hlt := h.earlier update hupdate
        omega
    · have hlt := h.created _ before hbefore
      refine h.attached hsound hregistry hid hsequence hcreated.ge (by omega) ?_ ?_
      · intro id other hlookup hne heq
        exact hne (h.distinct id other _ before hlookup hbefore (heq.trans hsame.symm))
      · intro update hupdate heq
        have hle := h.reached update hupdate _ before hbefore (hsame.trans heq.symm)
        omega
  | acknowledged proxy proxy' hproxy hstamp => exact h.acknowledged hproxy hstamp hsound

theorem Ordered.step [BEq F] (h : history.Ordered) (hstep : history.step config action = some history') :
    history'.Ordered := by
  obtain ⟨registry, hregistry, rfl⟩ := Option.map_eq_some_iff.mp hstep
  apply h.turn ?_ (h.sound.step hregistry)
  cases action with
  | consume inputs attachedId attachedGeneration stream request =>
    obtain ⟨hguard, ⟨⟩⟩ := Option.ite_none_left_eq_some.mp hregistry
    exact turn_of_consume h.sound h.named inputs (not_or.mp hguard).1 _ _ _ _
  | detach id generation =>
    cases hregistry
    exact .of_unmoved (h.sound.unmoved_detach id generation)
  | sample calls now =>
    cases hregistry
    exact .of_unmoved (h.sound.unmoved_sampleIds config calls now _)
  | shutdown =>
    cases hregistry
    refine .of_unmoved ⟨rfl, fun id proxy hlookup => ?_⟩
    simp [Registry.shutdown] at hlookup

end UpdateHistory

end LinuxcncCtrl
