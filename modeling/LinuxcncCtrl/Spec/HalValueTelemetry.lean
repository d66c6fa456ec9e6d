import LinuxcncCtrl.Spec.CallbackRuntime
import LinuxcncCtrl.Spec.HalComponent

/-! One subscription of `HalValueTelemetry` and the calls of the HAL service that change it. Requests and
samples run on the serialised HAL worker. What HAL holds and whether the sampling budget of all
subscriptions admits an update are inputs. A key string has the kind and the name of its item, and is
the reference itself here. Revisions and sequences are natural numbers; slots are 32 bits wide. -/

namespace LinuxcncCtrl

inductive HalTelemetryItemKind
  | pin | param | signal
  deriving DecidableEq

inductive HalTelemetryType
  | unavailable | bit | float | s32 | u32 | s64 | u64
  deriving DecidableEq

structure HalTelemetryReference where
  kind : HalTelemetryItemKind
  name : HalName
  deriving DecidableEq

structure HalTelemetryResolvedItem where
  item : HalTelemetryReference
  type : HalTelemetryType

structure HalTelemetryBinding where
  slot : UInt32
  item : HalTelemetryReference
  type : HalTelemetryType

structure HalTelemetrySnapshot (V : Type) where
  sampled : Bool
  revision : ℕ
  sequence : ℕ
  bindings : List HalTelemetryBinding
  values : List (Option V)

/-- `HalValueTelemetry::State`; `V` stands for `HalTelemetryValue`. -/
structure HalTelemetryState (V : Type) where
  samplePeriod : ℕ := 100
  revision : ℕ := 1
  sequence : ℕ := 0
  nextSlot : UInt32 := 0
  sampled : Bool := false
  bindings : List HalTelemetryBinding := []
  values : List (Option V) := []

/-- A request as the service receives it; a create has no expected revision. `items` are `none` where a
reference cannot be decoded, `types` are the types of the values HAL holds, and `budget` says whether
there is room for the subscription within the sampling budget. -/
structure HalValueRequest where
  expectedRevision : ℕ := 0
  items : List (Option HalTelemetryReference)
  samplePeriodMs : ℕ
  types : HalTelemetryReference → Option HalTelemetryType
  budget : Bool

/-- Decode the references and refuse one that occurs twice. -/
def decodeReferences : List HalTelemetryReference → List (Option HalTelemetryReference) →
    Except GrpcStatus (List HalTelemetryReference)
  | _, [] => .ok []
  | _, none :: _ =>
    .error ⟨.invalidArgument, "HAL value subscription contains an invalid item"⟩
  | seen, some item :: items =>
    if item ∈ seen then
      .error ⟨.invalidArgument, "HAL value subscription contains a duplicate item"⟩
    else
      match decodeReferences (item :: seen) items with
      | .error status => .error status
      | .ok references => .ok (item :: references)

/-- The type of a reference: that of the value HAL holds, or the one it is bound with. -/
def resolveReference (types : HalTelemetryReference → Option HalTelemetryType)
    (bindings : List HalTelemetryBinding) (item : HalTelemetryReference) :
    Except GrpcStatus HalTelemetryResolvedItem :=
  match types item with
  | some type => .ok { item, type }
  | none =>
    match bindings.find? fun binding => decide (binding.item = item) with
    | some binding => .ok { item, type := binding.type }
    | none => .error ⟨.notFound, "HAL item '" ++ String.ofList item.name ++ "' was not found"⟩

def resolveSubscriptionItems (types : HalTelemetryReference → Option HalTelemetryType)
    (bindings : List HalTelemetryBinding) (items : List (Option HalTelemetryReference)) :
    Except GrpcStatus (List HalTelemetryResolvedItem) :=
  if 1024 < items.length then
    .error ⟨.resourceExhausted, "HAL value subscription exceeds 1024 items"⟩
  else
    match decodeReferences [] items with
    | .error status => .error status
    | .ok references => references.mapM (resolveReference types bindings)

def subscriptionPeriod (value : ℕ) : Option ℕ :=
  let value := if value = 0 then 100 else value
  if value < 50 ∨ 60000 < value then none else some value

namespace HalTelemetryState

variable {V : Type}

def create (items : List HalTelemetryResolvedItem) (samplePeriod : ℕ) : HalTelemetryState V :=
  items.foldl (fun state item =>
    { state with
      nextSlot := state.nextSlot + 1
      bindings := state.bindings ++ [⟨state.nextSlot, item.item, item.type⟩]
      values := state.values ++ [none] }) { samplePeriod }

def doCreateValueSubscription (request : HalValueRequest) :
    Except GrpcStatus (HalTelemetryState V) :=
  if request.items = [] then
    .error ⟨.invalidArgument, "HAL value subscription requires at least one item"⟩
  else
    match resolveSubscriptionItems request.types [] request.items with
    | .error status => .error status
    | .ok items =>
      match subscriptionPeriod request.samplePeriodMs with
      | none =>
        .error ⟨.invalidArgument, "HAL value sample period must be between 50 and 60000 ms"⟩
      | some period =>
        if request.budget then .ok (create items period)
        else .error ⟨.resourceExhausted, "HAL value subscription limit reached"⟩

/-- The binding that an item keeps, with its value. -/
def prior (state : HalTelemetryState V) (item : HalTelemetryResolvedItem) :
    Option (HalTelemetryBinding × Option V) :=
  ((state.bindings.zip state.values).find? fun bound => decide (bound.1.item = item.item)).filter
    fun bound => decide (bound.1.type = item.type)

/-- The loop of `update`: every item keeps its binding or takes the next slot. -/
def rebind (state : HalTelemetryState V) :
    UInt32 → List HalTelemetryResolvedItem → UInt32 × List (HalTelemetryBinding × Option V)
  | nextSlot, [] => (nextSlot, [])
  | nextSlot, item :: items =>
    match state.prior item with
    | some bound =>
      let rest := state.rebind nextSlot items
      (rest.1, bound :: rest.2)
    | none =>
      let rest := state.rebind (nextSlot + 1) items
      (rest.1, (⟨nextSlot, item.item, item.type⟩, none) :: rest.2)

def update (state : HalTelemetryState V) (items : List HalTelemetryResolvedItem)
    (samplePeriod : ℕ) : HalTelemetryState V :=
  let rebound := state.rebind state.nextSlot items
  { samplePeriod
    revision := state.revision + 1
    sequence := state.sequence + 1
    nextSlot := rebound.1
    sampled := rebound.2.isEmpty
    bindings := rebound.2.map Prod.fst
    values := rebound.2.map Prod.snd }

/-- `do_update_value_subscription`. The revision is checked again inside `update`; nothing can change
it in between. -/
def doUpdateValueSubscription (state : HalTelemetryState V) (request : HalValueRequest) :
    Except GrpcStatus (HalTelemetryState V) :=
  if state.revision ≠ request.expectedRevision then
    .error ⟨.aborted, "HAL value subscription revision does not match"⟩
  else
    match resolveSubscriptionItems request.types state.bindings request.items with
    | .error status => .error status
    | .ok items =>
      match subscriptionPeriod request.samplePeriodMs with
      | none =>
        .error ⟨.invalidArgument, "HAL value sample period must be between 50 and 60000 ms"⟩
      | some period =>
        if request.budget then .ok (state.update items period)
        else .error ⟨.aborted, "HAL value subscription changed concurrently"⟩

/-- `publish`; `none` when the sample changes nothing and wakes nobody. -/
def publish [DecidableEq V] (state : HalTelemetryState V) (revision : ℕ) (values : List (Option V)) :
    Option (HalTelemetryState V) :=
  if state.revision ≠ revision ∨ state.values.length ≠ values.length then none
  else if state.sampled = true ∧ state.values = values then none
  else some { state with values, sampled := true, sequence := state.sequence + 1 }

def snapshot (state : HalTelemetryState V) : HalTelemetrySnapshot V :=
  { sampled := state.sampled
    revision := state.revision
    sequence := state.sequence
    bindings := state.bindings
    values := state.values }

end HalTelemetryState

end LinuxcncCtrl
