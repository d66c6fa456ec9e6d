import LinuxcncCtrl.Lib.Runs
import LinuxcncCtrl.Spec.CallbackRuntime
import LinuxcncCtrl.Spec.HalComponent

/-! `RemoteComponentRegistry`: the retained proxies of remote HAL components, their attachment to
client streams and the messages that create, activate, update and close them. Every operation runs on
the serialised HAL worker and is one function here.

The clock, the random proxy id and token and the HAL calls are inputs. Times are in nanoseconds and
periods in milliseconds. Generations and sequences are natural numbers; a 64-bit counter would have
to be incremented 2^64 times to differ. A proxy carries two fields for the proofs alone:
`incarnation` numbers the proxies in the order of their creation, and `attachedAt` is how many values
had been written to its component when its current generation began. -/

namespace LinuxcncCtrl

/-- `HalItemKind`; `other` is any value that no component item has. -/
inductive HalItemKind
  | pin | param | other
  deriving DecidableEq

structure HalItemRef where
  kind : HalItemKind
  name : HalName

structure ComponentValue (F : Type) where
  item : HalItemRef
  value : HalScalar F

/-- Enumerations on the wire are `none` for a value outside the enumeration. -/
structure HalComponentPin (F : Type) where
  name : HalName
  type : Option HalAdapterType
  direction : Option HalPinDirection
  disconnectValue : Option (HalScalar F) := none

structure HalComponentParameter (F : Type) where
  name : HalName
  type : Option HalAdapterType
  direction : Option HalParamDirection
  disconnectValue : Option (HalScalar F) := none

structure HalComponentCreate (F : Type) where
  name : HalName
  namePrefix : HalName := []
  pins : List (HalComponentPin F) := []
  parameters : List (HalComponentParameter F) := []
  samplingPeriodMs : ℕ := 0

structure HalComponentAttach where
  proxyId : HalName
  name : HalName
  ownershipToken : List UInt8

inductive HalComponentCloseMode
  | detach | destroy
  deriving DecidableEq

inductive HalComponentClientMessage (F : Type)
  | notSet
  | create (message : HalComponentCreate F)
  | attach (message : HalComponentAttach)
  | activate (generation : ℕ) (values : List (ComponentValue F))
  | update (generation sequence : ℕ) (values : List (ComponentValue F))
  | heartbeat (generation : ℕ)
  | close (generation : ℕ) (mode : Option HalComponentCloseMode)

structure EncodedValue (F : Type) where
  kind : HalItemKind
  name : HalName
  value : HalAdapterValue F

structure HalComponentAttached (F : Type) where
  proxyId : HalName
  name : HalName
  namePrefix : HalName
  generation : ℕ
  samplingPeriodMs : ℤ
  heartbeatIntervalMs : ℤ
  heartbeatTimeoutMs : ℤ
  ownershipToken : Option (List UInt8)
  retainedValues : List (EncodedValue F)

inductive HalComponentServerMessage (F : Type)
  | attached (message : HalComponentAttached F)
  | active (generation : ℕ)
  | updateAck (generation sequence : ℕ)
  | delta (generation sequence : ℕ) (values : List (EncodedValue F))
  | heartbeatAck (generation : ℕ)
  | closed (proxyId : HalName) (mode : HalComponentCloseMode)

structure RemoteComponentResult (F : Type) where
  status : GrpcStatus := ⟨.ok, ""⟩
  response : Option (HalComponentServerMessage F) := none
  proxyId : HalName := []
  generation : ℕ := 0
  close : Bool := false

/-- The pin every proxy has besides its schema. -/
def kOnlinePin : HalName := ['o', 'n', 'l', 'i', 'n', 'e']

def invalid (message : String) : GrpcStatus := ⟨.invalidArgument, message⟩

def halError (message : String) (code : ℤ) : GrpcStatus :=
  if code = -enoent then ⟨.notFound, message⟩
  else if code = -ebusy then ⟨.resourceExhausted, message⟩
  else if code = -einval then ⟨.invalidArgument, message⟩
  else ⟨.failedPrecondition, message⟩

def CreateFailure.status : CreateFailure → GrpcStatus
  | .hal message code => halError message code
  | .exception what => ⟨.internal, "remote component creation failed: " ++ what⟩
  | .unknown => ⟨.internal, "remote component creation failed"⟩

structure ProxyItem (F : Type) where
  suffix : HalName
  kind : HalItemKind
  type : HalAdapterType
  fullName : HalName
  clientWritable : Bool
  serverReadable : Bool
  disconnectValue : Option (HalAdapterValue F)
  previous : Option (HalAdapterValue F) := none

/-- `Proxy`; `callbacks` is the stream that holds the attachment. -/
structure Proxy (F σ : Type) where
  id : HalName
  ownershipToken : List UInt8
  component : HalComponent F
  items : List (ProxyItem F)
  samplingPeriod : ℤ
  nextSample : ℤ
  lastHeartbeat : ℤ
  generation : ℕ := 0
  clientSequence : ℕ := 0
  serverSequence : ℕ := 0
  attached : Bool := false
  active : Bool := false
  callbacks : Option σ := none
  incarnation : ℕ
  attachedAt : ℕ

structure RegistryConfig where
  maxItems : ℕ
  heartbeatInterval : ℤ
  heartbeatTimeout : ℤ
  defaultSamplingPeriod : ℤ
  minSamplingPeriod : ℤ
  maxSamplingPeriod : ℤ
  halNameLen : ℕ

structure AdmissionCounter where
  capacity : ℕ
  active : ℕ := 0
  accepting : Bool := true

namespace AdmissionCounter

def acquire (counter : AdmissionCounter) : Option AdmissionCounter :=
  if counter.accepting = true ∧ counter.active < counter.capacity then
    some { counter with active := counter.active + 1 }
  else none

def release (counter : AdmissionCounter) : AdmissionCounter :=
  { counter with active := counter.active - 1 }

end AdmissionCounter

structure Registry (F σ : Type) where
  proxies : AList fun _ : HalName => Proxy F σ := ∅
  retainedItemCount : ℕ := 0
  admission : AdmissionCounter
  slab : HalAllocationSlab
  created : ℕ := 0

/-- What one operation reads besides its arguments. `proxyId` is the id the drawing loop ends
with. -/
structure RegistryInputs (F : Type) where
  now : ℤ
  calls : HalCalls F
  proxyId : HalName
  token : List UInt8

inductive CallbackCall (F σ : Type)
  | offerDelta (stream : σ) (message : HalComponentServerMessage F)
  | heartbeatTimeout (stream : σ) (generation : ℕ)

structure ItemDefinition (F : Type) where
  name : HalName
  type : HalAdapterType
  direction : ItemDirection
  disconnect : Option (HalAdapterValue F)

/-- The checks that pins and parameters share: `direction` is `none` outside the enumeration, and
`allowed` says whether an item of this direction may have a disconnect value. -/
def itemDefinition {F : Type} (schemaError disconnectError : String) (names : List HalName)
    (name : HalName) (type : Option HalAdapterType) (direction : Option ItemDirection)
    (allowed : ItemDirection → Bool) (disconnectValue : Option (HalScalar F)) :
    Except GrpcStatus (ItemDefinition F) :=
  match type, direction with
  | some type, some direction =>
    if name = [] ∨ name ∈ names then .error (invalid schemaError)
    else
      match disconnectValue with
      | none => .ok { name, type, direction, disconnect := none }
      | some scalar =>
        match allowed direction, typedValue type scalar with
        | true, some value => .ok { name, type, direction, disconnect := some value }
        | _, _ => .error (invalid disconnectError)
  | _, _ => .error (invalid schemaError)

def pinDefinition {F : Type} (names : List HalName) (pin : HalComponentPin F) :
    Except GrpcStatus (ItemDefinition F) :=
  itemDefinition "component pin schema is invalid or uses a reserved/duplicate name"
    "component pin disconnect value is not allowed or has the wrong type" names pin.name pin.type
    (pin.direction.map .pin)
    (fun direction => decide (direction = .pin .output ∨ direction = .pin .io)) pin.disconnectValue

def parameterDefinition {F : Type} (names : List HalName) (parameter : HalComponentParameter F) :
    Except GrpcStatus (ItemDefinition F) :=
  itemDefinition "component parameter schema is invalid or uses a reserved/duplicate name"
    "component parameter disconnect value has the wrong type" names parameter.name parameter.type
    (parameter.direction.map .param) (fun _ => true) parameter.disconnectValue

/-- Check items one after another, each against the names before it. -/
def checkItems {F α : Type} (check : List HalName → α → Except GrpcStatus (ItemDefinition F)) :
    List HalName → List α → Except GrpcStatus (List (ItemDefinition F))
  | _, [] => .ok []
  | names, item :: items =>
    match check names item with
    | .error status => .error status
    | .ok definition =>
      match checkItems check (definition.name :: names) items with
      | .error status => .error status
      | .ok definitions => .ok (definition :: definitions)

def schemaDefinitions {F : Type} (create : HalComponentCreate F) :
    Except GrpcStatus (List (ItemDefinition F)) :=
  match checkItems pinDefinition [kOnlinePin] create.pins with
  | .error status => .error status
  | .ok pins =>
    match checkItems parameterDefinition ((pins.map ItemDefinition.name).reverse ++ [kOnlinePin])
        create.parameters with
    | .error status => .error status
    | .ok parameters => .ok (pins ++ parameters)

namespace ItemDefinition

variable {F : Type}

def kind (definition : ItemDefinition F) : HalItemKind :=
  match definition.direction with
  | .pin _ => .pin
  | .param _ => .param

def writable (definition : ItemDefinition F) : Bool :=
  match definition.direction with
  | .pin direction => decide (direction ≠ .input)
  | .param _ => true

def readable (definition : ItemDefinition F) : Bool :=
  match definition.direction with
  | .pin direction => decide (direction ≠ .output)
  | .param direction => decide (direction = .readWrite)

def proxyItem (definition : ItemDefinition F) (namePrefix : HalName) : ProxyItem F :=
  { suffix := definition.name
    kind := definition.kind
    type := definition.type
    fullName := namePrefix ++ '.' :: definition.name
    clientWritable := definition.writable
    serverReadable := definition.readable
    disconnectValue := definition.disconnect }

end ItemDefinition

/-- The managed pin: the client neither writes nor reads it. -/
def onlineItem {F : Type} (namePrefix : HalName) : ProxyItem F :=
  { suffix := kOnlinePin
    kind := .pin
    type := .bit
    fullName := namePrefix ++ '.' :: kOnlinePin
    clientWritable := false
    serverReadable := false
    disconnectValue := none }

/-- Add the items of a schema to the component. Returns what was built also when an item fails, for
the destructor to give back. -/
def addDefinitions {F : Type} (halNameLen : ℕ) (calls : HalCalls F) :
    HalAllocationSlab → HalComponent F → List (ItemDefinition F) →
      HalAllocationSlab × HalComponent F × Option CreateFailure
  | slab, component, [] => (slab, component, none)
  | slab, component, definition :: definitions =>
    match component.addItem halNameLen calls slab definition.name definition.type
        definition.direction with
    | .error failure => (slab, component, some failure)
    | .ok none => (slab, component, some (.hal "component item was rejected" (-einval)))
    | .ok (some (slab, component)) => addDefinitions halNameLen calls slab component definitions

namespace Proxy

variable {F σ : Type}

/-- `find_item`: by suffix, or by full name with the component's prefix. -/
def findItem (proxy : Proxy F σ) (ref : HalItemRef) : Option (ProxyItem F) :=
  let start := proxy.component.namePrefix ++ ['.']
  let name := if start.isPrefixOf ref.name then ref.name.drop start.length else ref.name
  proxy.items.find? fun item => decide (item.suffix = name) && decide (item.kind = ref.kind)

/-- The loop of `decode_values`; `seen` are the items already listed, by their suffix. -/
def decodeUpdates (proxy : Proxy F σ) :
    List HalName → List (ComponentValue F) →
      Except GrpcStatus (List (ProxyItem F × HalAdapterValue F))
  | _, [] => .ok []
  | seen, update :: updates =>
    match proxy.findItem update.item with
    | none => .error (invalid "component update targets an item not owned by the client")
    | some item =>
      if item.clientWritable = false then
        .error (invalid "component update targets an item not owned by the client")
      else if item.suffix ∈ seen then
        .error (invalid "component update contains a duplicate item")
      else
        match typedValue item.type update.value with
        | none => .error (invalid "component update value has the wrong exact type")
        | some value =>
          match proxy.decodeUpdates (item.suffix :: seen) updates with
          | .error status => .error status
          | .ok decoded => .ok ((item, value) :: decoded)

def decodeValues (proxy : Proxy F σ) (values : List (ComponentValue F)) (complete : Bool) :
    Except GrpcStatus (List (ProxyItem F × HalAdapterValue F)) :=
  match proxy.decodeUpdates [] values with
  | .error status => .error status
  | .ok decoded =>
    if complete = true ∧ decoded.length ≠ proxy.items.countP ProxyItem.clientWritable then
      .error (invalid "activation requires complete client-owned output state")
    else .ok decoded

/-- Write a value and ignore the result, as the code does for its own pins. -/
def put (proxy : Proxy F σ) (suffix : HalName) (value : HalAdapterValue F) : Proxy F σ :=
  { proxy with component := (proxy.component.write suffix value).1 }

def applyValues (proxy : Proxy F σ) :
    List (ProxyItem F × HalAdapterValue F) → Proxy F σ × Bool
  | [] => (proxy, true)
  | (item, value) :: values =>
    if (proxy.component.write item.suffix value).2 then (proxy.put item.suffix value).applyValues values
    else (proxy, false)

/-- `encode_snapshot`: read every item and remember what was read. -/
def encodeSnapshot (proxy : Proxy F σ) (config : RegistryConfig) (calls : HalCalls F)
    (includeToken : Bool) : Proxy F σ × HalComponentAttached F :=
  let value (item : ProxyItem F) := proxy.component.read calls item.suffix
  ({ proxy with
      items := proxy.items.map fun item =>
        match value item with
        | some value => { item with previous := some value }
        | none => item },
    { proxyId := proxy.id
      name := proxy.component.name
      namePrefix := proxy.component.namePrefix
      generation := proxy.generation
      samplingPeriodMs := proxy.samplingPeriod
      heartbeatIntervalMs := config.heartbeatInterval
      heartbeatTimeoutMs := config.heartbeatTimeout
      ownershipToken := if includeToken then some proxy.ownershipToken else none
      retainedValues := proxy.items.filterMap fun item =>
        (value item).map fun value => { kind := item.kind, name := item.fullName, value } })

def disconnectItem (proxy : Proxy F σ) (item : ProxyItem F) : Proxy F σ :=
  match item.disconnectValue with
  | some value => proxy.put item.suffix value
  | none => proxy

def applyDisconnect (proxy : Proxy F σ) : Proxy F σ :=
  let proxy := { proxy.put kOnlinePin (.bit false) with active := false }
  proxy.items.foldl disconnectItem proxy

def detached (proxy : Proxy F σ) : Proxy F σ :=
  { proxy.applyDisconnect with attached := false, callbacks := none }

def takeOver (proxy : Proxy F σ) (now : ℤ) (stream : σ) : Proxy F σ :=
  { proxy with
    attached := true
    active := false
    generation := proxy.generation + 1
    clientSequence := 0
    lastHeartbeat := now
    callbacks := some stream
    attachedAt := proxy.component.writes.length }.put kOnlinePin (.bit false)

def activate (proxy : Proxy F σ) (now : ℤ) (generation : ℕ) (values : List (ComponentValue F)) :
    Proxy F σ × RemoteComponentResult F :=
  let result : RemoteComponentResult F := { proxyId := proxy.id, generation := proxy.generation }
  if proxy.active = true ∨ generation ≠ proxy.generation then
    (proxy, { result with
      status := ⟨.failedPrecondition, "component is already active or its generation is stale"⟩ })
  else
    match proxy.decodeValues values true with
    | .error status => (proxy, { result with status })
    | .ok decoded =>
      match proxy.applyValues decoded with
      | (proxy, false) =>
        (proxy, { result with status := invalid "component activation could not be applied" })
      | (proxy, true) =>
        ({ proxy.put kOnlinePin (.bit true) with active := true, lastHeartbeat := now },
          { result with response := some (.active proxy.generation) })

def update (proxy : Proxy F σ) (now : ℤ) (generation sequence : ℕ)
    (values : List (ComponentValue F)) : Proxy F σ × RemoteComponentResult F :=
  let result : RemoteComponentResult F := { proxyId := proxy.id, generation := proxy.generation }
  if proxy.active = false ∨ generation ≠ proxy.generation then
    (proxy, { result with
      status := ⟨.failedPrecondition, "component update is inactive or stale"⟩ })
  else if sequence ≠ proxy.clientSequence + 1 then
    (proxy, { result with
      status := ⟨.outOfRange, "component update sequence is not contiguous"⟩ })
  else
    match proxy.decodeValues values false with
    | .error status => (proxy, { result with status })
    | .ok decoded =>
      match proxy.applyValues decoded with
      | (proxy, false) =>
        (proxy, { result with status := invalid "component update could not be applied" })
      | (proxy, true) =>
        ({ proxy with clientSequence := sequence, lastHeartbeat := now },
          { result with response := some (.updateAck proxy.generation sequence) })

def heartbeat (proxy : Proxy F σ) (now : ℤ) (generation : ℕ) :
    Proxy F σ × RemoteComponentResult F :=
  let result : RemoteComponentResult F := { proxyId := proxy.id, generation := proxy.generation }
  if generation ≠ proxy.generation then
    (proxy, { result with
      status := ⟨.failedPrecondition, "component heartbeat generation is stale"⟩ })
  else
    ({ proxy with lastHeartbeat := now },
      { result with response := some (.heartbeatAck proxy.generation) })

/-- The readable items that changed since they were last read or sent. -/
def changedValues [BEq F] (proxy : Proxy F σ) (calls : HalCalls F) : List (EncodedValue F) :=
  proxy.items.filterMap fun item =>
    if item.serverReadable = false then none
    else
      match proxy.component.read calls item.suffix, item.previous with
      | some value, some previous =>
        if previous.same value then none else some { kind := item.kind, name := item.fullName, value }
      | some value, none => some { kind := item.kind, name := item.fullName, value }
      | none, _ => none

def rememberValues [BEq F] (proxy : Proxy F σ) (calls : HalCalls F) : List (ProxyItem F) :=
  proxy.items.map fun item =>
    if item.serverReadable = false then item
    else
      match proxy.component.read calls item.suffix, item.previous with
      | some value, some previous =>
        if previous.same value then item else { item with previous := some value }
      | some value, none => { item with previous := some value }
      | none, _ => item

def sample [BEq F] (proxy : Proxy F σ) (config : RegistryConfig) (calls : HalCalls F) (now : ℤ) :
    Proxy F σ × List (CallbackCall F σ) :=
  if proxy.attached = false then (proxy, [])
  else if config.heartbeatTimeout * 1000000 ≤ now - proxy.lastHeartbeat then
    (proxy.detached, (proxy.callbacks.map fun stream =>
      .heartbeatTimeout stream proxy.generation).toList)
  else if proxy.active = false ∨ now < proxy.nextSample then (proxy, [])
  else
    let values := proxy.changedValues calls
    let sampled :=
      { proxy with
        nextSample := now + proxy.samplingPeriod * 1000000
        items := proxy.rememberValues calls }
    if values = [] then (sampled, [])
    else
      let sequence := proxy.serverSequence + 1
      ({ sampled with serverSequence := sequence },
        (proxy.callbacks.map fun stream =>
          .offerDelta stream (.delta proxy.generation sequence values)).toList)

end Proxy

/-- The fail-safe condition of a retained proxy. `online` is high only while the proxy is attached
and active; active means that a value has been written to every item of the client since the current
generation began; and a proxy that is not attached has `online` low and its disconnect values
written last. -/
structure Proxy.FailSafe {F σ : Type} (proxy : Proxy F σ) : Prop where
  online_high : proxy.component.lastWritten kOnlinePin = some (.bit true) →
    proxy.attached = true ∧ proxy.active = true
  active_complete : proxy.active = true → proxy.attached = true ∧
    ∀ item ∈ proxy.items, item.clientWritable = true → ∃ value, value.type = item.type ∧
      (item.suffix, value) ∈ proxy.component.writes.drop proxy.attachedAt
  disconnected : proxy.attached = false →
    proxy.component.lastWritten kOnlinePin = some (.bit false) ∧
      ∀ item ∈ proxy.items, ∀ value, item.disconnectValue = some value →
        proxy.component.lastWritten item.suffix = some value

namespace Registry

variable {F σ : Type}

def setProxy (registry : Registry F σ) (proxy : Proxy F σ) : Registry F σ :=
  { registry with proxies := registry.proxies.insert proxy.id proxy }

/-- The proxy a handle names is attached with exactly this generation. -/
def Current (registry : Registry F σ) (id : HalName) (generation : ℕ) (proxy : Proxy F σ) : Prop :=
  registry.proxies.lookup id = some proxy ∧ proxy.attached = true ∧ proxy.generation = generation

def detach (registry : Registry F σ) (id : HalName) (generation : ℕ) : Registry F σ :=
  match registry.proxies.lookup id with
  | none => registry
  | some proxy =>
    if proxy.attached = false ∨ proxy.generation ≠ generation then registry
    else registry.setProxy proxy.detached

/-- The component and its items, or the failure and the slab with every slot given back. -/
def buildComponent (registry : Registry F σ) (config : RegistryConfig) (calls : HalCalls F)
    (create : HalComponentCreate F) (namePrefix : HalName)
    (definitions : List (ItemDefinition F)) :
    Except (CreateFailure × HalAllocationSlab) (HalComponent F × HalAllocationSlab) :=
  match HalComponent.openComponent config.halNameLen calls create.name namePrefix with
  | .error failure => .error (failure, registry.slab)
  | .ok component =>
    match addDefinitions config.halNameLen calls registry.slab component definitions with
    | (slab, component, some failure) => .error (failure, component.close slab)
    | (slab, component, none) =>
      match component.addItem config.halNameLen calls slab kOnlinePin .bit (.pin .output) with
      | .error failure => .error (failure, component.close slab)
      | .ok none =>
        .error (.hal "managed online pin was rejected" (-einval), component.close slab)
      | .ok (some (slab, component)) =>
        match (component.write kOnlinePin (.bit false)).1.setReady calls with
        | .error failure => .error (failure, component.close slab)
        | .ok component =>
          match calls.thrown with
          | some failure => .error (failure, component.close slab)
          | none => .ok (component, slab)

def newProxy (registry : Registry F σ) (config : RegistryConfig) (inputs : RegistryInputs F)
    (create : HalComponentCreate F) (component : HalComponent F) (namePrefix : HalName)
    (definitions : List (ItemDefinition F)) (stream : σ) : Proxy F σ :=
  { id := inputs.proxyId
    ownershipToken := inputs.token
    component
    items := (definitions.map fun definition => definition.proxyItem namePrefix) ++
      [onlineItem namePrefix]
    samplingPeriod :=
      let requested :=
        if create.samplingPeriodMs = 0 then config.defaultSamplingPeriod
        else (create.samplingPeriodMs : ℤ)
      max config.minSamplingPeriod (min requested config.maxSamplingPeriod)
    nextSample := inputs.now
    lastHeartbeat := inputs.now
    generation := 1
    attached := true
    callbacks := some stream
    incarnation := registry.created
    attachedAt := component.writes.length }

def create (registry : Registry F σ) (config : RegistryConfig) (inputs : RegistryInputs F)
    (stream : σ) (create : HalComponentCreate F) : Registry F σ × RemoteComponentResult F :=
  let namePrefix := if create.namePrefix = [] then create.name else create.namePrefix
  if create.name = [] ∨ namePrefix = [] then
    (registry, { status := invalid "component name and prefix are required" })
  else if ∃ entry ∈ registry.proxies.entries, entry.2.component.name = create.name then
    (registry, { status := ⟨.alreadyExists, "remote component name already exists"⟩ })
  else
    match schemaDefinitions create with
    | .error status => (registry, { status })
    | .ok definitions =>
      let itemCount := definitions.length + 1
      match decide (config.maxItems < itemCount ∨
          config.maxItems - itemCount < registry.retainedItemCount), registry.admission.acquire with
      | false, some admission =>
        match registry.buildComponent config inputs.calls create namePrefix definitions with
        | .error (failure, slab) =>
          -- the budget and the admission taken above are given back
          ({ registry with slab, admission := admission.release }, { status := failure.status })
        | .ok (component, slab) =>
          let (proxy, message) :=
            (registry.newProxy config inputs create component namePrefix definitions
              stream).encodeSnapshot config inputs.calls true
          ({ registry with
              slab
              admission
              retainedItemCount := registry.retainedItemCount + itemCount
              created := registry.created + 1 }.setProxy proxy,
            { response := some (.attached message)
              proxyId := proxy.id
              generation := proxy.generation })
      | _, _ =>
        (registry,
          { status := ⟨.resourceExhausted, "remote HAL component or item budget exhausted"⟩ })

def attach (registry : Registry F σ) (config : RegistryConfig) (inputs : RegistryInputs F)
    (stream : σ) (attach : HalComponentAttach) : Registry F σ × RemoteComponentResult F :=
  match registry.proxies.lookup attach.proxyId with
  | none =>
    (registry, { status := ⟨.notFound, "remote component proxy was not found"⟩ })
  | some proxy =>
    if proxy.component.name ≠ attach.name then
      (registry, { status := ⟨.notFound, "remote component proxy was not found"⟩ })
    else if proxy.ownershipToken ≠ attach.ownershipToken then
      (registry, { status := ⟨.unauthenticated, "invalid remote component ownership token"⟩ })
    else if proxy.attached then
      (registry,
        { status := ⟨.alreadyExists, "remote component already has an active attachment"⟩ })
    else
      let (proxy, message) :=
        (proxy.takeOver inputs.now stream).encodeSnapshot config inputs.calls false
      (registry.setProxy proxy,
        { response := some (.attached message)
          proxyId := proxy.id
          generation := proxy.generation })

def close (registry : Registry F σ) (proxy : Proxy F σ) (generation : ℕ)
    (mode : Option HalComponentCloseMode) : Registry F σ × RemoteComponentResult F :=
  let result : RemoteComponentResult F := { proxyId := proxy.id, generation := proxy.generation }
  match decide (generation ≠ proxy.generation), mode with
  | false, some mode =>
    let result :=
      { result with response := some (.closed proxy.id mode), close := true }
    let proxy := proxy.detached
    match mode with
    | .detach => (registry.setProxy proxy, result)
    | .destroy =>
      ({ registry with
          proxies := registry.proxies.erase proxy.id
          retainedItemCount := registry.retainedItemCount - proxy.items.length
          admission := registry.admission.release
          slab := proxy.component.close registry.slab }, result)
  | _, _ =>
    (registry, { result with status := invalid "component close mode or generation is invalid" })

/-- A message on an attached stream, after its handle has been checked. -/
def dispatch (registry : Registry F σ) (proxy : Proxy F σ) (now : ℤ) :
    HalComponentClientMessage F → Registry F σ × RemoteComponentResult F
  | .activate generation values =>
    let (proxy, result) := proxy.activate now generation values
    (registry.setProxy proxy, result)
  | .update generation sequence values =>
    let (proxy, result) := proxy.update now generation sequence values
    (registry.setProxy proxy, result)
  | .heartbeat generation =>
    let (proxy, result) := proxy.heartbeat now generation
    (registry.setProxy proxy, result)
  | .close generation mode => registry.close proxy generation mode
  | .create _ | .attach _ | .notSet =>
    (registry,
      { proxyId := proxy.id
        generation := proxy.generation
        status := invalid "client sent an invalid component message" })

def consume (registry : Registry F σ) (config : RegistryConfig) (inputs : RegistryInputs F)
    (attachedId : HalName) (attachedGeneration : ℕ) (stream : σ)
    (request : HalComponentClientMessage F) : Registry F σ × RemoteComponentResult F :=
  match decide (attachedId = []), request with
  | true, .create message => registry.create config inputs stream message
  | true, .attach message => registry.attach config inputs stream message
  | true, _ => (registry, { status := invalid "first component message must be Create or Attach" })
  | false, .create _ | false, .attach _ =>
    (registry, { status := invalid "component stream is already attached" })
  | false, request =>
    match registry.proxies.lookup attachedId with
    | none =>
      (registry,
        { status := ⟨.failedPrecondition, "component attachment generation is stale"⟩ })
    | some proxy =>
      if proxy.attached = false ∨ proxy.generation ≠ attachedGeneration then
        (registry,
          { status := ⟨.failedPrecondition, "component attachment generation is stale"⟩ })
      else registry.dispatch proxy inputs.now request

def sampleIds [BEq F] (config : RegistryConfig) (calls : HalCalls F) (now : ℤ) :
    List HalName → Registry F σ → Registry F σ × List (CallbackCall F σ)
  | [], registry => (registry, [])
  | id :: ids, registry =>
    match registry.proxies.lookup id with
    | none => sampleIds config calls now ids registry
    | some proxy =>
      let (proxy, called) := proxy.sample config calls now
      let rest := sampleIds config calls now ids (registry.setProxy proxy)
      (rest.1, called ++ rest.2)

def sample [BEq F] (registry : Registry F σ) (config : RegistryConfig) (calls : HalCalls F)
    (now : ℤ) : Registry F σ × List (CallbackCall F σ) :=
  sampleIds config calls now registry.proxies.keys registry

def shutdown (registry : Registry F σ) : Registry F σ :=
  { registry with
    proxies := ∅
    retainedItemCount := 0
    admission := registry.proxies.keys.foldl (fun admission _ => admission.release)
      registry.admission
    slab := registry.proxies.entries.foldl (fun slab entry => entry.2.component.close slab)
      registry.slab }

end Registry

inductive RegistryAction (F σ : Type)
  | consume (inputs : RegistryInputs F) (attachedId : HalName) (attachedGeneration : ℕ) (stream : σ)
      (request : HalComponentClientMessage F)
  | detach (id : HalName) (generation : ℕ)
  | sample (calls : HalCalls F) (now : ℤ)
  | shutdown

/-- One operation. The drawing loop of `create` ends with an id that no retained proxy has, and an
id is never empty. -/
def Registry.step {F σ : Type} [BEq F] (config : RegistryConfig) (registry : Registry F σ) :
    RegistryAction F σ → Option (Registry F σ)
  | .consume inputs attachedId attachedGeneration stream request =>
    if inputs.proxyId = [] ∨ inputs.proxyId ∈ registry.proxies then none
    else some (registry.consume config inputs attachedId attachedGeneration stream request).1
  | .detach id generation => some (registry.detach id generation)
  | .sample calls now => some (registry.sample config calls now).1
  | .shutdown => some registry.shutdown

structure AcceptedUpdate where
  incarnation : ℕ
  generation : ℕ
  sequence : ℕ
  deriving DecidableEq

def Registry.acceptedUpdate {F σ : Type} (registry : Registry F σ) (config : RegistryConfig) :
    RegistryAction F σ → Option AcceptedUpdate
  | .consume inputs attachedId attachedGeneration stream request =>
    match (registry.consume config inputs attachedId attachedGeneration stream request).2.response,
        registry.proxies.lookup attachedId with
    | some (.updateAck generation sequence), some proxy =>
      some { incarnation := proxy.incarnation, generation, sequence }
    | _, _ => none
  | _ => none

structure UpdateHistory (F σ : Type) where
  registry : Registry F σ
  accepted : List AcceptedUpdate := []

namespace UpdateHistory

variable {F σ : Type}

def step [BEq F] (config : RegistryConfig) (history : UpdateHistory F σ)
    (action : RegistryAction F σ) : Option (UpdateHistory F σ) :=
  (history.registry.step config action).map fun registry =>
    { registry
      accepted := history.accepted ++ (history.registry.acceptedUpdate config action).toList }

def sequences (history : UpdateHistory F σ) (incarnation generation : ℕ) : List ℕ :=
  (history.accepted.filter fun update =>
    decide (update.incarnation = incarnation ∧ update.generation = generation)).map
      AcceptedUpdate.sequence

end UpdateHistory

end LinuxcncCtrl
