import LinuxcncCtrl.Sanity.RemoteOwnedCalls

/-! The values a client has and the values the registry has recorded. They agree when the attachment
begins, and every sampling sends exactly the readable items whose recorded value it changes. -/

namespace LinuxcncCtrl

open Lib

variable {F σ : Type}

namespace Proxy

variable {proxy proxy' proxy'' : Proxy F σ}

structure Layout (proxy : Proxy F σ) : Prop where
  named : Lib.Distinct ProxyItem.key proxy.items
  present : ∀ item ∈ proxy.items, ∀ calls, ∃ value,
    proxy.component.read calls item.suffix = some value

def Tracks (proxy : Proxy F σ) (client : ClientValues F) : Prop :=
  ∀ item ∈ proxy.items, item.serverReadable = true →
    ∃ value, item.previous = some value ∧ client item.key = some value

theorem framed_takeOver (proxy : Proxy F σ) (now : ℤ) (stream : σ) :
    proxy.Framed (proxy.takeOver now stream) := by
  refine Framed.trans ?_ (edited_put _ _ _).framed
  exact ⟨rfl, rfl⟩

theorem Layout.framed (h : proxy.Layout) (hframed : proxy.Framed proxy') : proxy'.Layout := by
  refine ⟨hframed.1 ▸ h.named, fun item hitem calls => ?_⟩
  rw [hframed.1] at hitem
  have hpresent := h.present item hitem calls
  unfold HalComponent.read at hpresent ⊢
  rw [hframed.2]
  exact hpresent

theorem Tracks.framed {client : ClientValues F} (h : proxy.Tracks client)
    (hframed : proxy.Framed proxy') : proxy'.Tracks client := by
  intro item hitem
  rw [hframed.1] at hitem
  exact h item hitem

theorem Layout.map (h : proxy.Layout) {record : ProxyItem F → ProxyItem F}
    (hrecord : ∀ item, (record item).key = item.key ∧ (record item).suffix = item.suffix)
    (hitems : proxy'.items = proxy.items.map record)
    (hcomponent : proxy'.component = proxy.component) : proxy'.Layout := by
  refine ⟨?_, fun item' hitem' calls => ?_⟩
  · unfold Lib.Distinct
    rw [hitems, List.map_map]
    have hkeys : ProxyItem.key ∘ record = ProxyItem.key := by
      funext item
      exact (hrecord item).1
    rw [hkeys]
    exact h.named
  · rw [hitems] at hitem'
    obtain ⟨item, hitem, rfl⟩ := List.mem_map.mp hitem'
    rw [hcomponent, (hrecord item).2]
    exact h.present item hitem calls

theorem Layout.encodeSnapshot (h : proxy.Layout) (config : RegistryConfig) (calls : HalCalls F)
    (includeToken : Bool) : (proxy.encodeSnapshot config calls includeToken).1.Layout := by
  refine h.map (fun item => ?_) rfl rfl
  split
  · exact ⟨rfl, rfl⟩
  · exact ⟨rfl, rfl⟩

theorem tracks_encodeSnapshot (h : proxy.Layout) (config : RegistryConfig) (calls : HalCalls F)
    (includeToken : Bool) (client : ClientValues F) :
    (proxy.encodeSnapshot config calls includeToken).1.Tracks
      (HalComponentServerMessage.receive client
        (.attached (proxy.encodeSnapshot config calls includeToken).2)) := by
  intro item' hitem' _
  obtain ⟨item, hitem, rfl⟩ := List.mem_map.mp hitem'
  obtain ⟨value, hvalue⟩ := h.present item hitem calls
  simp only [hvalue]
  refine ⟨value, rfl, ?_⟩
  refine (putAll_filterMap h.named ?_ hitem _).trans ?_
  · intro other entry hentry
    obtain ⟨read, -, rfl⟩ := Option.map_eq_some_iff.mp hentry
    rfl
  · dsimp only
    rw [hvalue]
    rfl

section Sampling

variable [BEq F] (calls : HalCalls F)

theorem Layout.rememberValues (h : proxy.Layout) (hitems : proxy'.items = proxy.rememberValues calls)
    (hcomponent : proxy'.component = proxy.component) : proxy'.Layout := by
  refine h.map (fun item => ?_) hitems hcomponent
  split_ifs
  · exact ⟨rfl, rfl⟩
  · split
    · split_ifs
      · exact ⟨rfl, rfl⟩
      · exact ⟨rfl, rfl⟩
    · exact ⟨rfl, rfl⟩
    · exact ⟨rfl, rfl⟩

def changedEntry (proxy : Proxy F σ) (item : ProxyItem F) : Option (EncodedValue F) :=
  if item.serverReadable = false then none
  else
    match proxy.component.read calls item.suffix, item.previous with
    | some value, some previous =>
      if previous.same value then none else some { kind := item.kind, name := item.fullName, value }
    | some value, none => some { kind := item.kind, name := item.fullName, value }
    | none, _ => none

theorem changedValues_eq (proxy : Proxy F σ) :
    proxy.changedValues calls = proxy.items.filterMap (proxy.changedEntry calls) := rfl

theorem changedEntry_key {item : ProxyItem F} {entry : EncodedValue F}
    (h : proxy.changedEntry calls item = some entry) : entry.key = item.key := by
  unfold changedEntry at h
  split_ifs at h
  split at h
  · split_ifs at h
    cases h
    rfl
  · cases h
    rfl
  · cases h

theorem changedValues_distinct (h : proxy.Layout) :
    Lib.Distinct EncodedValue.key (proxy.changedValues calls) := by
  rw [changedValues_eq]
  exact h.named.filterMap fun _ _ hentry => changedEntry_key calls hentry

theorem Tracks.rememberValues {client : ClientValues F} (h : proxy.Tracks client)
    (hlayout : proxy.Layout) (hitems : proxy'.items = proxy.rememberValues calls) :
    proxy'.Tracks (putAll EncodedValue.key EncodedValue.value (proxy.changedValues calls) client) := by
  intro item' hitem' hreadable'
  rw [hitems] at hitem'
  obtain ⟨item, hitem, rfl⟩ := List.mem_map.mp hitem'
  have hput : putAll EncodedValue.key EncodedValue.value
      (proxy.items.filterMap (proxy.changedEntry calls)) client item.key =
        ((proxy.changedEntry calls item).map EncodedValue.value).or (client item.key) :=
    putAll_filterMap hlayout.named (fun _ _ hentry => changedEntry_key calls hentry) hitem client
  obtain ⟨value, hvalue⟩ := hlayout.present item hitem calls
  rw [changedValues_eq]
  by_cases hreadable : item.serverReadable = false
  · rw [if_pos hreadable] at hreadable'
    cases hreadable.symm.trans hreadable'
  · obtain ⟨previous, hprevious, hclient⟩ := h item hitem (Bool.eq_true_of_not_eq_false hreadable)
    unfold changedEntry at hput
    rw [if_neg hreadable]
    simp only [hvalue, hprevious, if_neg hreadable] at hput ⊢
    by_cases hsame : previous.same value = true
    · rw [if_pos hsame] at hput ⊢
      exact ⟨previous, hprevious, hput.trans hclient⟩
    · rw [if_neg hsame] at hput ⊢
      exact ⟨value, rfl, hput⟩

end Sampling

theorem layout_newProxy {registry : Registry F σ} {config : RegistryConfig}
    {inputs : RegistryInputs F} {create : HalComponentCreate F} {component : HalComponent F}
    {namePrefix : HalName} {definitions : List (ItemDefinition F)} {slab : HalAllocationSlab}
    (hschema : schemaDefinitions create = .ok definitions)
    (hbuild : registry.buildComponent config inputs.calls create namePrefix definitions =
      .ok (component, slab)) (stream : σ) :
    (registry.newProxy config inputs create component namePrefix definitions stream).Layout := by
  have hdistinct := (newProxy_inv hschema hbuild stream).schema.distinct
  have hsuffixes := newProxy_suffixes registry config inputs create component namePrefix definitions
    stream
  obtain ⟨hbuilt, -⟩ := buildComponent_ok hbuild
  refine ⟨?_, fun item hitem calls => ?_⟩
  · -- the suffix is what follows the name of the component and the dot
    refine List.Nodup.of_map (fun key => key.2.drop (namePrefix.length + 1)) ?_
    have hdrop : (registry.newProxy config inputs create component namePrefix definitions
        stream).items.map (fun item => item.key.2.drop (namePrefix.length + 1)) =
        (registry.newProxy config inputs create component namePrefix definitions
          stream).items.map ProxyItem.suffix := by
      refine List.map_congr_left fun item hitem => ?_
      rcases List.mem_append.mp hitem with hitem | hitem
      · obtain ⟨definition, -, rfl⟩ := List.mem_map.mp hitem
        simp [ProxyItem.key, ItemDefinition.proxyItem]
      · rw [List.mem_singleton.mp hitem]
        simp [ProxyItem.key, onlineItem]
    rw [List.map_map]
    exact hdrop.symm ▸ hdistinct
  · have hmem : item.suffix ∈ component.items.map HalComponentItem.suffix := by
      rw [hbuilt.suffixes, ← hsuffixes]
      exact List.mem_map_of_mem hitem
    obtain ⟨found, hfound, hsuffix⟩ := List.mem_map.mp hmem
    have hsome : (component.items.find? fun other => decide (other.suffix = item.suffix)).isSome :=
      List.find?_isSome.mpr ⟨found, hfound, decide_eq_true hsuffix⟩
    obtain ⟨other, hother⟩ := Option.isSome_iff_exists.mp hsome
    exact ⟨calls.read other.fullName, congrArg (Option.map _) hother⟩

end Proxy

theorem HalComponentServerMessage.Plain.receive {message : HalComponentServerMessage F}
    (h : message.Plain) (client : ClientValues F) :
    message.isDelta = false ∧ HalComponentServerMessage.receive client message = client := by
  cases message with
  | attached message => exact absurd h id
  | delta generation sequence values => exact absurd h id
  | active _ | updateAck _ _ | heartbeatAck _ | closed _ _ => exact ⟨rfl, rfl⟩

/-- The values of a client after the messages that the calls hand to its stream. -/
def handed (calls : List (WorkerCall F)) (stream : ℕ) (client : ClientValues F) : ClientValues F :=
  (calls.filterMap (WorkerCall.message stream)).foldl HalComponentServerMessage.receive client

theorem handed_append (first second : List (WorkerCall F)) (stream : ℕ) (client : ClientValues F) :
    handed (first ++ second) stream client = handed second stream (handed first stream client) := by
  unfold handed
  rw [List.filterMap_append, List.foldl_append]

theorem handed_cons (call : WorkerCall F) (calls : List (WorkerCall F)) (stream : ℕ)
    (client : ClientValues F) :
    handed (call :: calls) stream client =
      handed calls stream ((call.message stream).elim client
        (HalComponentServerMessage.receive client)) := by
  unfold handed
  cases hmessage : call.message stream with
  | none => rw [List.filterMap_cons_none hmessage, Option.elim_none]
  | some message => rw [List.filterMap_cons_some hmessage, List.foldl_cons, Option.elim_some]

/-- A response is no delta, and the deltas are of different items. -/
def WorkerCall.Proper : WorkerCall F → Prop
  | .deliver _ result => ∀ response ∈ result.response, response.isDelta = false
  | .callback (.offerDelta _ message) => message.isDelta = true ∧ message.Distinct
  | .callback (.heartbeatTimeout _ _) => True

section Sample

variable [BEq F] {config : RegistryConfig} {calls : HalCalls F} {now : ℤ} {proxy : Proxy F ℕ} {stream : ℕ}

theorem Proxy.Layout.sample (h : proxy.Layout) : (proxy.sample config calls now).1.Layout := by
  unfold Proxy.sample
  dsimp only
  split_ifs
  · exact h
  · exact h.framed proxy.edited_detached.framed
  · exact h
  · exact h.rememberValues calls rfl rfl
  · exact h.rememberValues calls rfl rfl

theorem Proxy.sample_proper (h : proxy.Layout) {call : CallbackCall F ℕ}
    (hcall : call ∈ (proxy.sample config calls now).2) : (WorkerCall.callback call).Proper := by
  unfold Proxy.sample at hcall
  dsimp only at hcall
  split_ifs at hcall
  · cases hcall
  · obtain ⟨stream, -, rfl⟩ := Option.map_eq_some_iff.mp (Option.mem_toList.mp hcall)
    trivial
  · cases hcall
  · cases hcall
  · obtain ⟨stream, -, rfl⟩ := Option.map_eq_some_iff.mp (Option.mem_toList.mp hcall)
    exact ⟨rfl, changedValues_distinct calls h⟩

theorem Proxy.sample_other
    (hother : proxy.attached = true → proxy.callbacks ≠ some stream) (client : ClientValues F) :
    handed ((proxy.sample config calls now).2.map .callback) stream client = client := by
  unfold Proxy.sample
  dsimp only
  split_ifs with hattached
  · rfl
  · cases proxy.callbacks <;> rfl
  · rfl
  · rfl
  · cases hcallbacks : proxy.callbacks with
    | none => rfl
    | some holder =>
      have hne : holder ≠ stream := fun heq =>
        hother (Bool.eq_true_of_not_eq_false hattached) (hcallbacks.trans (congrArg some heq))
      unfold handed
      simp [WorkerCall.message, hne]

theorem Proxy.Tracks.sample {client : ClientValues F} (h : proxy.Tracks client)
    (hlayout : proxy.Layout) (hcallbacks : proxy.callbacks = some stream) :
    (proxy.sample config calls now).1.Tracks
      (handed ((proxy.sample config calls now).2.map .callback) stream client) := by
  have hsampled : ∀ sampled : Proxy F ℕ, sampled.items = proxy.rememberValues calls → sampled.Tracks
        (putAll EncodedValue.key EncodedValue.value (proxy.changedValues calls) client) :=
    fun _ hitems => h.rememberValues calls hlayout hitems
  unfold Proxy.sample
  dsimp only
  split_ifs with hattached htimeout hidle hempty
  · exact h
  · rw [hcallbacks]
    exact h.framed proxy.edited_detached.framed
  · exact h
  · rw [hempty] at hsampled
    exact hsampled _ rfl
  · rw [hcallbacks]
    change Proxy.Tracks _ (handed [.callback (.offerDelta stream _)] stream client)
    rw [handed_cons, WorkerCall.message, if_pos rfl]
    exact hsampled _ rfl

end Sample

namespace Registry

/-- The client of every live stream has the recorded values of its attachment. -/
structure Tracked (registry : Registry F ℕ) (live : ℕ → Prop) (client : ℕ → ClientValues F) :
    Prop where
  layout : ∀ id proxy, registry.proxies.lookup id = some proxy → proxy.Layout
  tracks : ∀ id proxy stream, registry.proxies.lookup id = some proxy → proxy.attached = true →
    proxy.callbacks = some stream → live stream → proxy.Tracks (client stream)

variable {registry registry' : Registry F ℕ} {live live' : ℕ → Prop}
  {client client' : ℕ → ClientValues F}

theorem Tracked.congr (h : registry.Tracked live client)
    (hclient : ∀ id proxy stream, registry.proxies.lookup id = some proxy → proxy.attached = true →
      proxy.callbacks = some stream → live' stream → live stream ∧ client' stream = client stream) :
    registry.Tracked live' client' := by
  refine ⟨h.layout, fun id proxy stream hlookup hattached hstream hlive' => ?_⟩
  obtain ⟨hlive, heq⟩ := hclient id proxy stream hlookup hattached hstream hlive'
  rw [heq]
  exact h.tracks id proxy stream hlookup hattached hstream hlive

def Silent (registry registry' : Registry F ℕ) : Prop :=
  ∀ id proxy', registry'.proxies.lookup id = some proxy' →
    ∃ proxy, registry.proxies.lookup id = some proxy ∧ proxy.Framed proxy'

theorem Tracked.silent (h : registry.Tracked live client) (hquiet : registry.Quiet registry')
    (hsilent : registry.Silent registry') : registry'.Tracked live client := by
  refine ⟨fun id proxy' hlookup' => ?_, fun id proxy' stream hlookup' hattached' hstream' hlive => ?_⟩
  · obtain ⟨proxy, hlookup, hframed⟩ := hsilent id proxy' hlookup'
    exact (h.layout id proxy hlookup).framed hframed
  · obtain ⟨proxy, hlookup, hframed⟩ := hsilent id proxy' hlookup'
    obtain ⟨before, hbefore, hfollows⟩ := hquiet.follows id proxy' hlookup'
    cases hlookup.symm.trans hbefore
    obtain ⟨hattached, hstream⟩ := hfollows.attached hattached'
    exact (h.tracks id proxy stream hlookup hattached (hstream.symm.trans hstream') hlive).framed
      hframed

theorem silent_detach (hkeyed : registry.Keyed) (id : HalName) (generation : ℕ) :
    registry.Silent (registry.detach id generation) := by
  obtain hsame | ⟨proxy, hlookup, hset⟩ := registry.detach_cases id generation
  · rw [hsame]
    exact fun _ proxy hlookup => ⟨proxy, hlookup, .refl proxy⟩
  · rw [hset]
    exact related_setProxy .refl hkeyed hlookup proxy.edited_detached.follows.id proxy.edited_detached.framed

variable {proxy : Proxy F ℕ} {id : HalName}

theorem silent_dispatched {dispatched : Registry F ℕ × RemoteComponentResult F} (hkeyed : registry.Keyed)
    (hlookup : registry.proxies.lookup id = some proxy) (h : registry.Dispatched proxy dispatched) :
    registry.Silent dispatched.1 :=
  h.related .refl (·.framed) hkeyed hlookup

section

variable (h : registry.Tracked live client) (config : RegistryConfig) (calls : HalCalls F)

include h

/-- A stream without attachment is given one: its client starts from the retained values. -/
theorem Tracked.grant {stream : ℕ} (hlayout : proxy.Layout) (hcallbacks : proxy.callbacks = some stream)
    (hfree : ∀ id other, registry.proxies.lookup id = some other → other.attached = true →
      other.callbacks ≠ some stream) (includeToken : Bool) :
    (registry.setProxy (proxy.encodeSnapshot config calls includeToken).1).Tracked live
      (Function.update client stream (HalComponentServerMessage.receive (client stream)
        (.attached (proxy.encodeSnapshot config calls includeToken).2))) := by
  refine ⟨fun id found hfound => ?_, fun id found other hfound hattached hother hlive => ?_⟩
  · rw [lookup_setProxy] at hfound
    split_ifs at hfound
    · cases hfound
      exact hlayout.encodeSnapshot config calls includeToken
    · exact h.layout id found hfound
  · rw [lookup_setProxy] at hfound
    split_ifs at hfound
    · cases hfound
      cases hcallbacks.symm.trans hother
      rw [Function.update_self]
      exact Proxy.tracks_encodeSnapshot hlayout config calls includeToken _
    · have hne : other ≠ stream := fun heq => hfree id found hfound hattached (heq ▸ hother)
      rw [Function.update_of_ne hne]
      exact h.tracks id found other hfound hattached hother hlive

theorem Tracked.sampleOne [BEq F] (hkeyed : registry.Keyed) (hseparate : registry.Separate)
    (hlookup : registry.proxies.lookup id = some proxy) (now : ℤ) :
    (registry.setProxy (proxy.sample config calls now).1).Tracked live fun stream =>
      handed ((proxy.sample config calls now).2.map .callback) stream (client stream) := by
  have hfollows := Proxy.follows_sample proxy config calls now
  have hid : (proxy.sample config calls now).1.id = id := hfollows.id.trans (hkeyed id proxy hlookup)
  have hlayout := h.layout id proxy hlookup
  refine ⟨fun other found hfound => ?_, fun other found stream hfound hattached hstream hlive => ?_⟩
  · rw [lookup_setProxy] at hfound
    split_ifs at hfound
    · cases hfound
      exact hlayout.sample
    · exact h.layout other found hfound
  · rw [lookup_setProxy, hid] at hfound
    split_ifs at hfound with hother
    · cases hfound
      obtain ⟨hattached, hsame⟩ := hfollows.attached hattached
      have hholds := hsame.symm.trans hstream
      exact (h.tracks id proxy stream hlookup hattached hholds hlive).sample hlayout hholds
    · rw [Proxy.sample_other]
      · exact h.tracks other found stream hfound hattached hstream hlive
      · intro hattached' hstream'
        exact hother (hseparate other found id proxy stream hfound hlookup hattached hattached'
          hstream hstream')

theorem Tracked.sampleIds [BEq F] (now : ℤ) (ids : List HalName) (hkeyed : registry.Keyed)
    (hseparate : registry.Separate) :
    (sampleIds config calls now ids registry).1.Tracked live (fun stream =>
      handed ((sampleIds config calls now ids registry).2.map .callback) stream (client stream)) ∧
    ∀ call ∈ (sampleIds config calls now ids registry).2, (WorkerCall.callback call).Proper := by
  induction ids generalizing registry client with
  | nil => exact ⟨h, nofun⟩
  | cons id ids ih =>
    unfold Registry.sampleIds
    cases hlookup : registry.proxies.lookup id with
    | none => exact ih h hkeyed hseparate
    | some proxy =>
      have hquiet := quiet_setProxy hkeyed hlookup (Proxy.follows_sample proxy config calls now)
      have hone := h.sampleOne config calls hkeyed hseparate hlookup now
      obtain ⟨htracked, hproper⟩ := ih hone (hquiet.keyed hkeyed) (hquiet.separate hseparate)
      refine ⟨?_, fun call hcall => ?_⟩
      · simp only [List.map_append, handed_append]
        exact htracked
      · rcases List.mem_append.mp hcall with hfirst | hrest
        · exact Proxy.sample_proper (h.layout id proxy hlookup) hfirst
        · exact hproper call hrest

end

end Registry

end LinuxcncCtrl
