import LinuxcncCtrl.Sanity.RemoteRegistry

/-! Who holds a proxy. Apart from `create` and `attach`, an operation either leaves the attachment of a
proxy as it is or ends it; a handle that is not the current attachment changes nothing at all. -/

namespace LinuxcncCtrl

variable {F σ : Type}

/-- Neither the attached message nor a delta. -/
def HalComponentServerMessage.Plain : HalComponentServerMessage F → Prop
  | .attached _ | .delta _ _ _ => False
  | _ => True

namespace Proxy

/-- The attachment of the proxy is what it was, or it is over. -/
structure Follows (proxy proxy' : Proxy F σ) : Prop where
  id : proxy'.id = proxy.id
  incarnation : proxy'.incarnation = proxy.incarnation
  generation : proxy'.generation = proxy.generation
  holder : (proxy'.attached = proxy.attached ∧ proxy'.callbacks = proxy.callbacks) ∨
    (proxy'.attached = false ∧ proxy'.callbacks = none)

variable {proxy proxy' proxy'' : Proxy F σ}

theorem Follows.refl (proxy : Proxy F σ) : proxy.Follows proxy := ⟨rfl, rfl, rfl, .inl ⟨rfl, rfl⟩⟩

theorem Follows.trans (h : proxy.Follows proxy') (h' : proxy'.Follows proxy'') : proxy.Follows proxy'' := by
  refine ⟨h'.id.trans h.id, h'.incarnation.trans h.incarnation, h'.generation.trans h.generation, ?_⟩
  rcases h'.holder with ⟨hattached, hcallbacks⟩ | hover
  · rw [hattached, hcallbacks]
    exact h.holder
  · exact .inr hover

theorem Follows.attached (h : proxy.Follows proxy') (hattached : proxy'.attached = true) :
    proxy.attached = true ∧ proxy'.callbacks = proxy.callbacks := by
  rcases h.holder with ⟨hsame, hcallbacks⟩ | ⟨hfalse, -⟩
  · exact ⟨hsame.symm.trans hattached, hcallbacks⟩
  · cases hfalse.symm.trans hattached

def Framed (proxy proxy' : Proxy F σ) : Prop :=
  proxy'.items = proxy.items ∧ proxy'.component.items = proxy.component.items

theorem Framed.refl (proxy : Proxy F σ) : proxy.Framed proxy := ⟨rfl, rfl⟩

theorem Framed.trans (h : proxy.Framed proxy') (h' : proxy'.Framed proxy'') : proxy.Framed proxy'' :=
  ⟨h'.1.trans h.1, h'.2.trans h.2⟩

structure Edited (proxy proxy' : Proxy F σ) : Prop where
  follows : proxy.Follows proxy'
  framed : proxy.Framed proxy'

theorem Edited.refl (proxy : Proxy F σ) : proxy.Edited proxy := ⟨.refl proxy, .refl proxy⟩

theorem Edited.trans (h : proxy.Edited proxy') (h' : proxy'.Edited proxy'') : proxy.Edited proxy'' :=
  ⟨h.follows.trans h'.follows, h.framed.trans h'.framed⟩

theorem edited_put (proxy : Proxy F σ) (suffix : HalName) (value : HalAdapterValue F) :
    proxy.Edited (proxy.put suffix value) := by
  refine ⟨⟨rfl, rfl, rfl, .inl ⟨rfl, rfl⟩⟩, rfl, ?_⟩
  unfold put HalComponent.write
  split_ifs <;> rfl

theorem edited_applyValues (values : List (ProxyItem F × HalAdapterValue F)) (proxy : Proxy F σ) :
    proxy.Edited (proxy.applyValues values).1 := by
  induction values generalizing proxy with
  | nil => exact .refl proxy
  | cons entry values ih =>
    unfold applyValues
    split_ifs
    · exact (edited_put proxy _ _).trans (ih _)
    · exact .refl proxy

theorem edited_disconnect (items : List (ProxyItem F)) (proxy : Proxy F σ) :
    proxy.Edited (items.foldl disconnectItem proxy) := by
  induction items generalizing proxy with
  | nil => exact .refl proxy
  | cons item items ih =>
    rw [List.foldl_cons]
    refine Edited.trans ?_ (ih _)
    unfold disconnectItem
    split
    · exact edited_put proxy _ _
    · exact .refl proxy

theorem edited_detached (proxy : Proxy F σ) : proxy.Edited proxy.detached := by
  have honline := edited_put proxy kOnlinePin (.bit false)
  have hinactive : proxy.Edited { proxy.put kOnlinePin (.bit false) with active := false } :=
    ⟨⟨rfl, rfl, rfl, .inl ⟨rfl, rfl⟩⟩, honline.framed⟩
  have hdisconnect : proxy.Edited proxy.applyDisconnect := hinactive.trans (edited_disconnect _ _)
  have hfollows := hdisconnect.follows
  exact ⟨{ hfollows with holder := .inr ⟨rfl, rfl⟩ }, hdisconnect.framed⟩

/-- The result of a message names the attachment it was handed to, and carries no values. -/
structure Replies (proxy : Proxy F σ) (result : RemoteComponentResult F) : Prop where
  proxyId : result.proxyId = proxy.id
  generation : result.generation = proxy.generation
  plain : ∀ response, result.response = some response → response.Plain

structure Answers (proxy : Proxy F σ) (answer : Proxy F σ × RemoteComponentResult F) : Prop where
  edited : proxy.Edited answer.1
  replies : proxy.Replies answer.2
  goesOn : answer.2.close = false

theorem answers_refused (proxy : Proxy F σ) (status : GrpcStatus) :
    proxy.Answers (proxy, { proxyId := proxy.id, generation := proxy.generation, status }) :=
  ⟨.refl proxy, ⟨rfl, rfl, nofun⟩, rfl⟩

theorem answers_activate (proxy : Proxy F σ) (now : ℤ) (generation : ℕ)
    (values : List (ComponentValue F)) : proxy.Answers (proxy.activate now generation values) := by
  unfold Proxy.activate
  split_ifs
  · exact answers_refused proxy _
  · split
    next => exact answers_refused proxy _
    next decoded _ =>
      have happly := edited_applyValues decoded proxy
      split
      next applied heq =>
        rw [heq] at happly
        exact ⟨happly, ⟨rfl, rfl, nofun⟩, rfl⟩
      next applied heq =>
        rw [heq] at happly
        have honline := happly.trans (edited_put applied kOnlinePin (.bit true))
        have hfollows := honline.follows
        refine ⟨⟨{ hfollows with }, honline.framed⟩,
          ⟨rfl, rfl, ?_⟩, rfl⟩
        rintro _ ⟨⟩
        trivial

theorem answers_update (proxy : Proxy F σ) (now : ℤ) (generation sequence : ℕ)
    (values : List (ComponentValue F)) : proxy.Answers (proxy.update now generation sequence values) := by
  unfold Proxy.update
  split_ifs
  · exact answers_refused proxy _
  · exact answers_refused proxy _
  · split
    next => exact answers_refused proxy _
    next decoded _ =>
      have happly := edited_applyValues decoded proxy
      split
      next applied heq =>
        rw [heq] at happly
        exact ⟨happly, ⟨rfl, rfl, nofun⟩, rfl⟩
      next applied heq =>
        rw [heq] at happly
        have hfollows := happly.follows
        refine ⟨⟨{ hfollows with }, happly.framed⟩,
          ⟨rfl, rfl, ?_⟩, rfl⟩
        rintro _ ⟨⟩
        trivial

theorem answers_heartbeat (proxy : Proxy F σ) (now : ℤ) (generation : ℕ) :
    proxy.Answers (proxy.heartbeat now generation) := by
  unfold Proxy.heartbeat
  split_ifs
  · exact answers_refused proxy _
  · refine ⟨⟨⟨rfl, rfl, rfl, .inl ⟨rfl, rfl⟩⟩, rfl, rfl⟩, ⟨rfl, rfl, ?_⟩, rfl⟩
    rintro _ ⟨⟩
    trivial

theorem follows_sample [BEq F] (proxy : Proxy F σ) (config : RegistryConfig) (calls : HalCalls F)
    (now : ℤ) : proxy.Follows (proxy.sample config calls now).1 := by
  unfold Proxy.sample
  dsimp only
  split_ifs
  · exact .refl proxy
  · exact (edited_detached proxy).follows
  · exact .refl proxy
  · exact ⟨rfl, rfl, rfl, .inl ⟨rfl, rfl⟩⟩
  · exact ⟨rfl, rfl, rfl, .inl ⟨rfl, rfl⟩⟩

end Proxy

namespace Registry

def Keyed (registry : Registry F σ) : Prop :=
  ∀ id proxy, registry.proxies.lookup id = some proxy → proxy.id = id

/-- No attachment is given: every proxy that is retained was retained before. -/
structure Quiet (registry registry' : Registry F σ) : Prop where
  created : registry'.created = registry.created
  follows : ∀ id proxy', registry'.proxies.lookup id = some proxy' →
    ∃ proxy, registry.proxies.lookup id = some proxy ∧ proxy.Follows proxy'

variable {registry registry' registry'' : Registry F σ} {id : HalName} {generation : ℕ}

theorem Quiet.refl (registry : Registry F σ) : registry.Quiet registry :=
  ⟨rfl, fun _ proxy hlookup => ⟨proxy, hlookup, .refl proxy⟩⟩

theorem Quiet.trans (h : registry.Quiet registry') (h' : registry'.Quiet registry'') :
    registry.Quiet registry'' := by
  refine ⟨h'.created.trans h.created, fun id proxy'' hlookup'' => ?_⟩
  obtain ⟨proxy', hlookup', hfollows'⟩ := h'.follows id proxy'' hlookup''
  obtain ⟨proxy, hlookup, hfollows⟩ := h.follows id proxy' hlookup'
  exact ⟨proxy, hlookup, hfollows.trans hfollows'⟩

theorem Quiet.keyed (h : registry.Quiet registry') (hkeyed : registry.Keyed) : registry'.Keyed := by
  intro id proxy' hlookup'
  obtain ⟨proxy, hlookup, hfollows⟩ := h.follows id proxy' hlookup'
  exact hfollows.id.trans (hkeyed id proxy hlookup)

theorem Quiet.current (h : registry.Quiet registry')
    {proxy' : Proxy F σ} (hcurrent : registry'.Current id generation proxy') :
    ∃ proxy, registry.Current id generation proxy ∧ proxy.Follows proxy' := by
  obtain ⟨hlookup', hattached', hgeneration⟩ := hcurrent
  obtain ⟨proxy, hlookup, hfollows⟩ := h.follows id proxy' hlookup'
  refine ⟨proxy, ⟨hlookup, (hfollows.attached hattached').1, ?_⟩, hfollows⟩
  exact hfollows.generation.symm.trans hgeneration

def Separate (registry : Registry F σ) : Prop :=
  ∀ id proxy id' proxy' stream, registry.proxies.lookup id = some proxy →
    registry.proxies.lookup id' = some proxy' → proxy.attached = true → proxy'.attached = true →
    proxy.callbacks = some stream → proxy'.callbacks = some stream → id = id'

theorem Quiet.separate (h : registry.Quiet registry') (hseparate : registry.Separate) :
    registry'.Separate := by
  intro id proxy' id₂ proxy₂' stream hlookup' hlookup₂' hattached' hattached₂' hstream' hstream₂'
  obtain ⟨proxy, hlookup, hfollows⟩ := h.follows id proxy' hlookup'
  obtain ⟨proxy₂, hlookup₂, hfollows₂⟩ := h.follows id₂ proxy₂' hlookup₂'
  obtain ⟨hattached, hstream⟩ := hfollows.attached hattached'
  obtain ⟨hattached₂, hstream₂⟩ := hfollows₂.attached hattached₂'
  exact hseparate id proxy id₂ proxy₂ stream hlookup hlookup₂ hattached hattached₂
    (hstream.symm.trans hstream') (hstream₂.symm.trans hstream₂')

section Operations

variable {id : HalName} {proxy proxy' : Proxy F σ} {R : Proxy F σ → Proxy F σ → Prop}

theorem related_setProxy (hrefl : ∀ proxy, R proxy proxy)
    (hkeyed : registry.Keyed) (hlookup : registry.proxies.lookup id = some proxy)
    (hid : proxy'.id = proxy.id) (h : R proxy proxy') (other : HalName) (found : Proxy F σ)
    (hfound : (registry.setProxy proxy').proxies.lookup other = some found) :
    ∃ before, registry.proxies.lookup other = some before ∧ R before found := by
  rw [lookup_setProxy, hid, hkeyed id proxy hlookup] at hfound
  split_ifs at hfound with hother
  · cases hfound
    exact ⟨proxy, hother ▸ hlookup, h⟩
  · exact ⟨found, hfound, hrefl found⟩

theorem quiet_setProxy (hkeyed : registry.Keyed) (hlookup : registry.proxies.lookup id = some proxy)
    (hfollows : proxy.Follows proxy') : registry.Quiet (registry.setProxy proxy') :=
  ⟨rfl, related_setProxy .refl hkeyed hlookup hfollows.id hfollows⟩

theorem detach_cases (registry : Registry F σ) (id : HalName) (generation : ℕ) :
    registry.detach id generation = registry ∨ ∃ proxy, registry.proxies.lookup id = some proxy ∧
      registry.detach id generation = registry.setProxy proxy.detached := by
  unfold Registry.detach
  split
  next => exact .inl rfl
  next proxy hlookup =>
    split_ifs
    · exact .inl rfl
    · exact .inr ⟨proxy, hlookup, rfl⟩

theorem quiet_detach (hkeyed : registry.Keyed) (id : HalName) (generation : ℕ) :
    registry.Quiet (registry.detach id generation) := by
  obtain hsame | ⟨proxy, hlookup, hset⟩ := registry.detach_cases id generation
  · rw [hsame]
    exact .refl registry
  · rw [hset]
    exact quiet_setProxy hkeyed hlookup proxy.edited_detached.follows

inductive Dispatched (registry : Registry F σ) (proxy : Proxy F σ) :
    Registry F σ × RemoteComponentResult F → Prop
  | answered {answer : Proxy F σ × RemoteComponentResult F} : proxy.Answers answer →
      Dispatched registry proxy (registry.setProxy answer.1, answer.2)
  | refused {result : RemoteComponentResult F} : proxy.Replies result → result.close = false →
      Dispatched registry proxy (registry, result)
  | detached {result : RemoteComponentResult F} : proxy.Replies result →
      Dispatched registry proxy (registry.setProxy proxy.detached, result)
  | destroyed {result : RemoteComponentResult F} : proxy.Replies result →
      Dispatched registry proxy
        ({ registry with
          proxies := registry.proxies.erase proxy.detached.id
          retainedItemCount := registry.retainedItemCount - proxy.detached.items.length
          admission := registry.admission.release
          slab := proxy.detached.component.close registry.slab }, result)

variable {dispatched : Registry F σ × RemoteComponentResult F}

theorem Dispatched.replies (h : registry.Dispatched proxy dispatched) : proxy.Replies dispatched.2 := by
  cases h with
  | answered hanswers => exact hanswers.replies
  | refused hreplies _ => exact hreplies
  | detached hreplies => exact hreplies
  | destroyed hreplies => exact hreplies

theorem dispatched_close (registry : Registry F σ) (proxy : Proxy F σ) (generation : ℕ)
    (mode : Option HalComponentCloseMode) :
    registry.Dispatched proxy (registry.close proxy generation mode) := by
  unfold Registry.close
  split
  next mode _ =>
    have hreplies : proxy.Replies
        { proxyId := proxy.id, generation := proxy.generation
          response := some (.closed proxy.id mode), close := true } := by
      refine ⟨rfl, rfl, ?_⟩
      rintro _ ⟨⟩
      trivial
    cases mode with
    | detach => exact .detached hreplies
    | destroy => exact .destroyed hreplies
  next => exact .refused ⟨rfl, rfl, nofun⟩ rfl

section

variable (registry : Registry F σ) (proxy : Proxy F σ) (now : ℤ) (request : HalComponentClientMessage F)

theorem dispatched_dispatch : registry.Dispatched proxy (registry.dispatch proxy now request) := by
  cases request with
  | activate generation values => exact .answered (proxy.answers_activate now generation values)
  | update generation sequence values =>
    exact .answered (proxy.answers_update now generation sequence values)
  | heartbeat generation => exact .answered (proxy.answers_heartbeat now generation)
  | close generation mode => exact dispatched_close registry proxy generation mode
  | create message => exact .refused ⟨rfl, rfl, nofun⟩ rfl
  | attach message => exact .refused ⟨rfl, rfl, nofun⟩ rfl
  | notSet => exact .refused ⟨rfl, rfl, nofun⟩ rfl

theorem dispatch_response (message : HalComponentAttached F) :
    (registry.dispatch proxy now request).2.response ≠ some (.attached message) := fun hresponse =>
  (dispatched_dispatch registry proxy now request).replies.plain _ hresponse

end

theorem Dispatched.related (hrefl : ∀ proxy, R proxy proxy)
    (hedited : ∀ {proxy proxy'}, Proxy.Edited proxy proxy' → R proxy proxy') (hkeyed : registry.Keyed)
    (hlookup : registry.proxies.lookup id = some proxy) (h : registry.Dispatched proxy dispatched)
    (other : HalName) (found : Proxy F σ) (hfound : dispatched.1.proxies.lookup other = some found) :
    ∃ before, registry.proxies.lookup other = some before ∧ R before found := by
  have hset : ∀ proxy', proxy.Edited proxy' → (registry.setProxy proxy').proxies.lookup other = some found →
      ∃ before, registry.proxies.lookup other = some before ∧ R before found := fun _ h =>
    related_setProxy hrefl hkeyed hlookup h.follows.id (hedited h) other found
  cases h with
  | answered hanswers => exact hset _ hanswers.edited hfound
  | refused _ _ => exact ⟨found, hfound, hrefl found⟩
  | detached _ => exact hset _ proxy.edited_detached hfound
  | destroyed _ =>
    rw [lookup_erase] at hfound
    split_ifs at hfound
    exact ⟨found, hfound, hrefl found⟩

theorem quiet_dispatched (hkeyed : registry.Keyed)
    (hlookup : registry.proxies.lookup id = some proxy) (h : registry.Dispatched proxy dispatched) :
    registry.Quiet dispatched.1 := by
  refine ⟨?_, h.related .refl (·.follows) hkeyed hlookup⟩
  cases h <;> rfl

theorem quiet_sampleIds [BEq F] (config : RegistryConfig) (calls : HalCalls F) (now : ℤ)
    (ids : List HalName) (hkeyed : registry.Keyed) :
    registry.Quiet (sampleIds config calls now ids registry).1 := by
  induction ids generalizing registry with
  | nil => exact .refl registry
  | cons id ids ih =>
    unfold Registry.sampleIds
    split
    next => exact ih hkeyed
    next proxy hlookup =>
      have hfirst := quiet_setProxy hkeyed hlookup (Proxy.follows_sample proxy config calls now)
      exact hfirst.trans (ih (hfirst.keyed hkeyed))

end Operations

section Ends

variable {id : HalName} {proxy : Proxy F σ} {config : RegistryConfig} {calls : HalCalls F} {now : ℤ}
  {stream : σ} {generation : ℕ}

theorem setProxy_detached_not_current (hkeyed : registry.Keyed)
    (hlookup : registry.proxies.lookup id = some proxy) (generation : ℕ) (found : Proxy F σ) :
    ¬ (registry.setProxy proxy.detached).Current id generation found := by
  rintro ⟨hfound, hattached, -⟩
  have hid : id = proxy.detached.id :=
    (proxy.edited_detached.follows.id.trans (hkeyed id proxy hlookup)).symm
  rw [lookup_setProxy, if_pos hid] at hfound
  cases hfound
  cases hattached

theorem detach_not_current (hkeyed : registry.Keyed) (id : HalName) (generation : ℕ)
    (found : Proxy F σ) : ¬ (registry.detach id generation).Current id generation found := by
  unfold Registry.detach
  split
  next hnone =>
    rintro ⟨hlookup, -, -⟩
    rw [hnone] at hlookup
    cases hlookup
  next proxy hlookup =>
    split_ifs with hstale
    · rintro ⟨hfound, hattached, hgeneration⟩
      cases hlookup.symm.trans hfound
      rcases hstale with hfalse | hne
      · cases hfalse.symm.trans hattached
      · exact hne hgeneration
    · exact setProxy_detached_not_current hkeyed hlookup generation found

theorem Dispatched.closed {dispatched : Registry F σ × RemoteComponentResult F} (hkeyed : registry.Keyed)
    (hlookup : registry.proxies.lookup id = some proxy) (h : registry.Dispatched proxy dispatched)
    (hclose : dispatched.2.close = true) (generation : ℕ) (found : Proxy F σ) :
    ¬ dispatched.1.Current id generation found := by
  cases h with
  | answered hanswers => exact absurd (hanswers.goesOn.symm.trans hclose) nofun
  | refused _ hopen => exact absurd (hopen.symm.trans hclose) nofun
  | detached _ => exact setProxy_detached_not_current hkeyed hlookup generation found
  | destroyed _ =>
    rintro ⟨hfound, -, -⟩
    have hid : id = proxy.detached.id :=
      (proxy.edited_detached.follows.id.trans (hkeyed id proxy hlookup)).symm
    rw [lookup_erase, if_pos hid] at hfound
    cases hfound

theorem sample_timeout [BEq F]
    (h : .heartbeatTimeout stream generation ∈ (proxy.sample config calls now).2) :
    proxy.attached = true ∧ proxy.generation = generation ∧ proxy.callbacks = some stream ∧
      (proxy.sample config calls now).1 = proxy.detached := by
  unfold Proxy.sample at h ⊢
  dsimp only at h ⊢
  split_ifs at h ⊢ with hattached htimeout hidle hempty
  · simp at h
  · obtain ⟨holder, hholder, hcall⟩ := Option.map_eq_some_iff.mp (Option.mem_toList.mp h)
    obtain ⟨rfl, rfl⟩ := CallbackCall.heartbeatTimeout.inj hcall
    exact ⟨Bool.eq_true_of_not_eq_false hattached, rfl, hholder, rfl⟩
  · simp at h
  · simp at h
  · obtain ⟨holder, -, hcall⟩ := Option.map_eq_some_iff.mp (Option.mem_toList.mp h)
    cases hcall

/-- A heartbeat timeout is reported for an attachment that the same sampling ends. -/
theorem sampleIds_timeout [BEq F] {ids : List HalName} (hkeyed : registry.Keyed)
    (h : .heartbeatTimeout stream generation ∈ (sampleIds config calls now ids registry).2) :
    ∃ id proxy, registry.Current id generation proxy ∧ proxy.callbacks = some stream ∧
      ∀ found, ¬ (sampleIds config calls now ids registry).1.Current id generation found := by
  induction ids generalizing registry with
  | nil => cases h
  | cons id ids ih =>
    unfold Registry.sampleIds at h ⊢
    cases hlookup : registry.proxies.lookup id with
    | none =>
      simp only [hlookup] at h ⊢
      exact ih hkeyed h
    | some proxy =>
      simp only [hlookup] at h ⊢
      have hquiet := quiet_setProxy hkeyed hlookup (Proxy.follows_sample proxy config calls now)
      have hrest := quiet_sampleIds config calls now ids (hquiet.keyed hkeyed)
      rcases List.mem_append.mp h with hfirst | hlater
      · obtain ⟨hattached, hgeneration, hcallbacks, hdetached⟩ := sample_timeout hfirst
        refine ⟨id, proxy, ⟨hlookup, hattached, hgeneration⟩, hcallbacks, fun found hfound => ?_⟩
        obtain ⟨before, hbefore, -⟩ := hrest.current hfound
        rw [hdetached] at hbefore
        exact setProxy_detached_not_current hkeyed hlookup generation before hbefore
      · obtain ⟨other, found, hcurrent, hcallbacks, hends⟩ := ih (hquiet.keyed hkeyed) hlater
        obtain ⟨before, hbefore, hfollows⟩ := hquiet.current hcurrent
        refine ⟨other, before, hbefore, ?_, hends⟩
        rw [← (hfollows.attached hcurrent.2.1).2]
        exact hcallbacks

end Ends

theorem detach_stale (h : ∀ proxy, ¬ registry.Current id generation proxy) :
    registry.detach id generation = registry := by
  unfold Registry.detach
  split
  next => rfl
  next proxy hlookup =>
    rw [if_pos]
    by_contra hcurrent
    obtain ⟨hattached, hgeneration⟩ := not_or.mp hcurrent
    exact h proxy ⟨hlookup, Bool.eq_true_of_not_eq_false hattached, Decidable.of_not_not hgeneration⟩

theorem consume_stale {config : RegistryConfig} {inputs : RegistryInputs F} {attachedId : HalName}
    {attachedGeneration : ℕ} {stream : σ} {request : HalComponentClientMessage F}
    (hlater : attachedId ≠ [])
    (h : ∀ proxy, ¬ registry.Current attachedId attachedGeneration proxy) :
    (registry.consume config inputs attachedId attachedGeneration stream request).1 = registry := by
  unfold Registry.consume
  rw [decide_eq_false hlater]
  split
  next heq => cases heq
  next heq => cases heq
  next => rfl
  next => rfl
  next => rfl
  next =>
    split
    next => rfl
    next proxy hlookup =>
      split_ifs with hstale
      · rfl
      · obtain ⟨hattached, hgeneration⟩ := not_or.mp hstale
        exact absurd ⟨hlookup, Bool.eq_true_of_not_eq_false hattached,
          Decidable.of_not_not hgeneration⟩ (h proxy)

end Registry

end LinuxcncCtrl
