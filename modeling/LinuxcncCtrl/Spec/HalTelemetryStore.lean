import LinuxcncCtrl.Lib.Runs
import LinuxcncCtrl.Spec.HalValueTelemetry

/-! `HalValueTelemetry` with all its subscriptions: the table by id, the table by attachment token, the sampling
budget they share and the deadlines of those that no session holds. Every operation holds the mutex and is one
function here. The clock readings and the drawn ids and tokens are inputs; times are in nanoseconds, periods in
milliseconds and the attachment time in seconds. Waking the listeners is left out. -/

namespace LinuxcncCtrl

def HalTelemetryItemKind.digit : HalTelemetryItemKind → Char
  | .pin => '1'
  | .param => '2'
  | .signal => '3'

def HalTelemetryReference.key (item : HalTelemetryReference) : List Char :=
  item.kind.digit :: ':' :: item.name

inductive SubscriptionAction (V : Type)
  | update (request : HalValueRequest)
  | publish (revision : ℕ) (values : List (Option V))

namespace HalTelemetryState

variable {V : Type} [DecidableEq V]

/-- A refused update and a sample that counts for nothing leave the subscription alone. -/
def step (state : HalTelemetryState V) : SubscriptionAction V → Option (HalTelemetryState V)
  | .update request =>
    match state.doUpdateValueSubscription request with
    | .error _ => some state
    | .ok updated => some updated
  | .publish revision values => some ((state.publish revision values).getD state)

/-- `prior` as the code finds it, in the map from the keys of the bindings to their positions. -/
def priorByKey (state : HalTelemetryState V) (item : HalTelemetryResolvedItem) :
    Option (HalTelemetryBinding × Option V) :=
  ((state.bindings.zip state.values).find? fun bound =>
    decide (bound.1.item.key = item.item.key)).filter fun bound => decide (bound.1.type = item.type)

end HalTelemetryState

/-- The slots that an action takes; a refused update takes none. -/
def SubscriptionAction.allocates {V : Type} (state : HalTelemetryState V) : SubscriptionAction V → ℕ
  | .update request =>
    match state.doUpdateValueSubscription request with
    | .error _ => 0
    | .ok _ =>
      match resolveSubscriptionItems request.types state.bindings request.items with
      | .error _ => 0
      | .ok items => items.countP fun item => (state.prior item).isNone
  | .publish _ _ => 0

/-- Fewer than 2^32 slots have been allocated, those of the action included. -/
def HalTelemetryState.SlotsRemain {V : Type} (state : HalTelemetryState V)
    (action : SubscriptionAction V) : Prop :=
  state.nextSlot.toNat + action.allocates state < 2 ^ 32

instance {V : Type} (state : HalTelemetryState V) (action : SubscriptionAction V) :
    Decidable (state.SlotsRemain action) :=
  inferInstanceAs (Decidable (_ < _))

/-- An entry of `states_`: the fields of `State` that concern the attachment, and the subscription. -/
structure HalTelemetryEntry (V : Type) where
  id : HalName
  attachmentToken : HalName
  expires : ℤ
  nextDue : ℤ
  attached : Bool := false
  state : HalTelemetryState V

structure HalTelemetryDescriptor where
  subscriptionId : HalName
  websocketPath : HalName
  revision : ℕ
  samplePeriod : ℕ
  bindings : List HalTelemetryBinding

structure HalTelemetryDueSample where
  subscriptionId : HalName
  revision : ℕ
  bindings : List HalTelemetryBinding

/-- `HalValueTelemetry`; `tokens` maps a token to the id of its subscription. -/
structure HalValueTelemetry (V : Type) where
  capacity : ℕ := 128
  attachmentTtl : ℤ := 30
  states : List (HalTelemetryEntry V) := []
  tokens : List (HalName × HalName) := []
  closed : Bool := false

/-- What the loop of `expire_locked` removes. -/
def HalTelemetryEntry.expired {V : Type} (now : ℤ) (entry : HalTelemetryEntry V) : Bool :=
  !entry.attached && decide (entry.expires ≤ now)

def kMaxSamplesPerSecond : UInt64 := 20480

/-- The lambda `include` of the budget check, for one binding. -/
def includeItem (period : ℕ) (fastest : AList fun _ : List Char => ℕ) (item : HalTelemetryReference) :
    AList fun _ : List Char => ℕ :=
  match fastest.lookup item.key with
  | none => fastest.insert item.key period
  | some found => if period < found then fastest.insert item.key period else fastest

/-- The map `fastest` of the budget check. The subscription that an update replaces is skipped. -/
def fastestPeriods {V : Type} (states : List (HalTelemetryEntry V)) (replacing : Option HalName)
    (items : List HalTelemetryResolvedItem) (samplePeriod : ℕ) : AList fun _ : List Char => ℕ :=
  let fastest := states.foldl (fun fastest entry =>
    if replacing = some entry.id then fastest
    else
      (entry.state.bindings.map HalTelemetryBinding.item).foldl (includeItem entry.state.samplePeriod)
        fastest) ∅
  (items.map HalTelemetryResolvedItem.item).foldl (includeItem samplePeriod) fastest

/-- The loop over `fastest`, which visits the periods in this order. Returns also every cost that was
subtracted from the bound. -/
def chargeRates (cost : UInt64) : List UInt64 → Bool × List UInt64
  | [] => (true, [])
  | milliseconds :: periods =>
    let rate := (1000 + milliseconds - 1) / milliseconds
    if kMaxSamplesPerSecond - cost < rate then (false, [cost])
    else
      let rest := chargeRates (cost + rate) periods
      (rest.1, cost :: rest.2)

namespace HalValueTelemetry

variable {V : Type} (store : HalValueTelemetry V)

def find (id : HalName) : Option (HalTelemetryEntry V) :=
  store.states.find? fun entry => decide (entry.id = id)

def set (entry : HalTelemetryEntry V) : HalValueTelemetry V :=
  { store with states := store.states.map fun other => if other.id = entry.id then entry else other }

def eraseToken (tokens : List (HalName × HalName)) (token : HalName) : List (HalName × HalName) :=
  tokens.filter fun entry => decide (entry.1 ≠ token)

def describe (entry : HalTelemetryEntry V) : HalTelemetryDescriptor :=
  { subscriptionId := entry.id
    websocketPath := "/v1/hal-values/".toList ++ entry.attachmentToken
    revision := entry.state.revision
    samplePeriod := entry.state.samplePeriod
    bindings := entry.state.bindings }

def expireLocked (now : ℤ) : HalValueTelemetry V :=
  { store with
    states := store.states.filter fun entry => !entry.expired now
    tokens := store.states.foldl (fun tokens entry =>
      if entry.expired now then eraseToken tokens entry.attachmentToken else tokens) store.tokens }

def withinSamplingBudgetLocked (replacing : Option HalName) (items : List HalTelemetryResolvedItem)
    (samplePeriod : ℕ) : Bool :=
  (chargeRates 0 ((fastestPeriods store.states replacing items samplePeriod).entries.map fun entry =>
    UInt64.ofNat entry.2)).1

/-- `create`. The clock is read for the expiry, for the deadline and for the first sample. -/
def create (items : List HalTelemetryResolvedItem) (samplePeriod : ℕ) (now deadline due : ℤ)
    (id token : HalName) : HalValueTelemetry V × Option HalTelemetryDescriptor :=
  if store.closed then (store, none)
  else
    let store := store.expireLocked now
    if store.capacity ≤ store.states.length then (store, none)
    else if store.withinSamplingBudgetLocked none items samplePeriod = false then (store, none)
    else
      let entry : HalTelemetryEntry V :=
        { id
          attachmentToken := token
          expires := deadline + store.attachmentTtl * 1000000000
          nextDue := due
          state := .create items samplePeriod }
      ({ store with states := store.states ++ [entry], tokens := store.tokens ++ [(token, id)] },
        some (describe entry))

def update (id : HalName) (expectedRevision : ℕ) (items : List HalTelemetryResolvedItem)
    (samplePeriod : ℕ) (due : ℤ) : HalValueTelemetry V × Option HalTelemetryDescriptor :=
  match store.closed, store.find id with
  | false, some entry =>
    if entry.state.revision ≠ expectedRevision then (store, none)
    else if store.withinSamplingBudgetLocked (some id) items samplePeriod = false then (store, none)
    else
      let entry := { entry with nextDue := due, state := entry.state.update items samplePeriod }
      (store.set entry, some (describe entry))
  | _, _ => (store, none)

def descriptor (id : HalName) : Option HalTelemetryDescriptor := (store.find id).map describe

def claim (token : HalName) (now due : ℤ) : HalValueTelemetry V × Option HalName :=
  let store := store.expireLocked now
  match store.closed, store.tokens.find? fun entry => decide (entry.1 = token) with
  | false, some (_, id) =>
    match store.find id with
    | none => (store, none)
    | some entry =>
      if entry.attached then (store, none)
      else (store.set { entry with attached := true, nextDue := due }, some entry.id)
  | _, _ => (store, none)

def detach (id : HalName) (now : ℤ) : HalValueTelemetry V × Bool :=
  match store.find id with
  | none => (store, false)
  | some entry =>
    if entry.attached = false then (store, false)
    else
      (store.set
        { entry with attached := false, expires := now + store.attachmentTtl * 1000000000 }, true)

def erase (id : HalName) : HalValueTelemetry V × Bool :=
  match store.find id with
  | none => (store, false)
  | some entry =>
    ({ store with
        states := store.states.filter fun other => decide (other.id ≠ id)
        tokens := eraseToken store.tokens entry.attachmentToken }, true)

def close : HalValueTelemetry V :=
  if store.closed then store else { store with states := [], tokens := [], closed := true }

def due (now : ℤ) : HalValueTelemetry V × List HalTelemetryDueSample :=
  let store := store.expireLocked now
  let ready (entry : HalTelemetryEntry V) : Bool :=
    entry.attached && !entry.state.bindings.isEmpty && decide (entry.nextDue ≤ now)
  ({ store with
      states := store.states.map fun entry =>
        if ready entry then
          { entry with nextDue := now + entry.state.samplePeriod * 1000000 }
        else entry },
    (store.states.filter ready).map fun entry =>
      ⟨entry.id, entry.state.revision, entry.state.bindings⟩)

def publish [DecidableEq V] (id : HalName) (revision : ℕ) (values : List (Option V)) :
    HalValueTelemetry V :=
  match store.find id with
  | none => store
  | some entry =>
    match entry.state.publish revision values with
    | none => store
    | some state => store.set { entry with state }

end HalValueTelemetry

inductive HalTelemetryAction (V : Type)
  | create (items : List HalTelemetryResolvedItem) (samplePeriodMs : ℕ) (now deadline due : ℤ)
      (id token : HalName)
  | update (id : HalName) (expectedRevision : ℕ) (items : List HalTelemetryResolvedItem)
      (samplePeriodMs : ℕ) (due : ℤ)
  | claim (token : HalName) (now due : ℤ)
  | detach (id : HalName) (now : ℤ)
  | erase (id : HalName)
  | due (now : ℤ)
  | publish (id : HalName) (revision : ℕ) (values : List (Option V))
  | close

/-- One operation. The service refuses a period before it calls `create` or `update`; the drawing loops of
`create` end with an id and a token that are not in the tables. -/
def HalValueTelemetry.step {V : Type} [DecidableEq V] (store : HalValueTelemetry V) :
    HalTelemetryAction V → Option (HalValueTelemetry V)
  | .create items samplePeriodMs now deadline due id token =>
    match subscriptionPeriod samplePeriodMs with
    | none => some store
    | some period =>
      if (store.expireLocked now).states.any (fun entry => decide (entry.id = id)) = true ∨
          (store.expireLocked now).tokens.any (fun entry => decide (entry.1 = token)) = true then none
      else some (store.create items period now deadline due id token).1
  | .update id expectedRevision items samplePeriodMs due =>
    match subscriptionPeriod samplePeriodMs with
    | none => some store
    | some period => some (store.update id expectedRevision items period due).1
  | .claim token now due => some (store.claim token now due).1
  | .detach id now => some (store.detach id now).1
  | .erase id => some (store.erase id).1
  | .due now => some (store.due now).1
  | .publish id revision values => some (store.publish id revision values)
  | .close => some store.close

end LinuxcncCtrl
