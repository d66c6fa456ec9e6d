import LinuxcncCtrl.Spec.CallbackRuntime
import LinuxcncCtrl.Spec.HalComponent

/-! `HalService::do_write` and `LinuxCncHalAdapter::write_many`: a batch of writes to pins, parameters and
signals of HAL. The HAL library's search by name is an input, as is the answer of each poll of the stop
token. Memory is a function of addresses; a cell that was last written with another type is read through
`reinterpret`. The HAL mutex is held throughout, and no realtime component writes to the items meanwhile. -/

namespace LinuxcncCtrl

inductive HalAdapterItemKind
  | pin | param | signal
  deriving DecidableEq

structure HalAdapterReference where
  kind : HalAdapterItemKind
  name : HalName

/-- `hal_sig_t`; the type is `none` outside those of the adapter, the data pointer where it is null. -/
structure HalSignalRecord where
  type : Option HalAdapterType
  data : Option ℕ
  writers : ℤ

/-- `hal_pin_t`; `dummysig` is the address of the pin's own cell. -/
structure HalPinRecord where
  type : Option HalAdapterType
  direction : HalPinDirection
  signal : Option HalSignalRecord
  dummysig : ℕ

structure HalParamRecord where
  type : Option HalAdapterType
  direction : HalParamDirection
  data : Option ℕ

/-- What is found in HAL: `halpr_find_pin_by_name` and its like, and whether `hal_data` is there. -/
structure HalDirectory (F : Type) where
  attached : Bool
  findPin : HalName → Option HalPinRecord
  findParam : HalName → Option HalParamRecord
  findSignal : HalName → Option HalSignalRecord
  reinterpret : HalAdapterType → HalAdapterValue F → HalAdapterValue F

inductive HalItemRecord
  | pin (pin : HalPinRecord)
  | param (param : HalParamRecord)
  | signal (signal : HalSignalRecord)

structure ResolvedItem where
  type : HalAdapterType
  data : Option ℕ
  item : HalItemRecord

def HalPinRecord.pinData (pin : HalPinRecord) : Option ℕ :=
  match pin.signal with
  | some signal => signal.data
  | none => some pin.dummysig

def cString (name : HalName) : HalName := name.takeWhile fun c => decide (c ≠ Char.ofNat 0)

namespace HalItemRecord

def type : HalItemRecord → Option HalAdapterType
  | .pin found => found.type
  | .param found => found.type
  | .signal found => found.type

def data : HalItemRecord → Option ℕ
  | .pin found => found.pinData
  | .param found => found.data
  | .signal found => found.data

def writable : HalItemRecord → Bool
  | .pin found => !(decide (found.direction = .output) || found.signal.isSome)
  | .param found => decide (found.direction = .readWrite)
  | .signal found => !decide (0 < found.writers)

end HalItemRecord

structure HalAdapterError where
  message : String
  code : ℤ

def enodev : ℤ := 19
def ecanceled : ℤ := 125

abbrev HalMemory (F : Type) := ℕ → HalAdapterValue F

/-- `write_value`; `none` is its result `false`. -/
def writeValue {F : Type} (memory : HalMemory F) (type : HalAdapterType) (data : Option ℕ)
    (value : HalAdapterValue F) : Option (HalMemory F) :=
  match data with
  | none => none
  | some address => if value.type = type then some (Function.update memory address value) else none

namespace HalDirectory

variable {F : Type} (hal : HalDirectory F)

def find (reference : HalAdapterReference) : Option HalItemRecord :=
  match reference.kind with
  | .pin => (hal.findPin (cString reference.name)).map .pin
  | .param => (hal.findParam (cString reference.name)).map .param
  | .signal => (hal.findSignal (cString reference.name)).map .signal

def resolveUnlocked (reference : HalAdapterReference) : Option ResolvedItem :=
  if reference.name = [] then none
  else
    match hal.find reference with
    | none => none
    | some item => item.type.map fun type => { type, data := item.data, item }

def readValue (memory : HalMemory F) (type : HalAdapterType) (address : ℕ) : HalAdapterValue F :=
  if (memory address).type = type then memory address else hal.reinterpret type (memory address)

/-- The body of the first loop of `write_many`; `none` where it returns 0. -/
def resolveUpdate (update : HalAdapterReference × HalAdapterValue F) : Option ResolvedItem :=
  match hal.resolveUnlocked update.1 with
  | none => none
  | some item =>
    if item.data = none ∨ update.2.type ≠ item.type then none
    else if item.item.writable then some item
    else none

def writeCancelled : HalAdapterError := ⟨"HAL write cancelled", -ecanceled⟩

/-- The first loop of `write_many`, which polls the stop token for each item. -/
def resolveUpdates (stopped : ℕ → Bool) :
    ℕ → List (HalAdapterReference × HalAdapterValue F) → Except HalAdapterError (Option (List ResolvedItem))
  | _, [] => .ok (some [])
  | poll, update :: updates =>
    if stopped poll then .error writeCancelled
    else
      match hal.resolveUpdate update with
      | none => .ok none
      | some item =>
        match resolveUpdates stopped (poll + 1) updates with
        | .ok (some items) => .ok (some (item :: items))
        | rest => rest

/-- The second loop: the memory, the number of items written and the values read back. -/
def writeLoop : HalMemory F → List (ResolvedItem × HalAdapterValue F) →
    HalMemory F × ℕ × List (HalAdapterValue F)
  | memory, [] => (memory, 0, [])
  | memory, (item, value) :: rest =>
    match writeValue memory item.type item.data value with
    | none => (memory, 0, [])
    | some memory =>
      let result := writeLoop memory rest
      (result.1, result.2.1 + 1,
        (item.data.map fun address => hal.readValue memory item.type address).toList ++ result.2.2)

/-- `write_many`: the memory it leaves, and the number of items and the values or what it throws. -/
def writeMany (stopped : ℕ → Bool) (poll : ℕ) (memory : HalMemory F)
    (updates : List (HalAdapterReference × HalAdapterValue F)) :
    HalMemory F × Except HalAdapterError (ℕ × List (HalAdapterValue F)) :=
  if hal.attached = false then (memory, .error ⟨"HAL is not initialized", -enodev⟩)
  else
    match hal.resolveUpdates stopped poll updates with
    | .error error => (memory, .error error)
    | .ok none => (memory, .ok (0, []))
    | .ok (some items) =>
      if stopped (poll + updates.length) then (memory, .error writeCancelled)
      else
        let result := hal.writeLoop memory (items.zip (updates.map Prod.snd))
        (result.1, .ok result.2)

end HalDirectory

/-- An item reference on the wire; the kind is `none` outside the enumeration. -/
structure HalWireReference where
  kind : Option HalAdapterItemKind
  name : HalName

structure HalItemWrite (F : Type) where
  item : HalWireReference
  value : HalScalar F

structure HalItemValue (F : Type) where
  item : HalWireReference
  value : HalScalar F

structure HalWriteOutcome (F : Type) where
  memory : HalMemory F
  status : GrpcStatus
  values : List (HalItemValue F) := []

namespace HalService

variable {F : Type}

def kMaxHalBatchItems : ℕ := 1024

def decodeHalReference (source : HalWireReference) : Option HalAdapterReference :=
  if source.name = [] then none else source.kind.map fun kind => ⟨kind, source.name⟩

def kindDigit : HalAdapterItemKind → Char
  | .pin => '0'
  | .param => '1'
  | .signal => '2'

def referenceKey (reference : HalAdapterReference) : List Char :=
  kindDigit reference.kind :: ':' :: reference.name

def halError (error : HalAdapterError) : GrpcStatus :=
  if error.code = -enoent then ⟨.notFound, error.message⟩
  else if error.code = -ebusy then ⟨.resourceExhausted, error.message⟩
  else if error.code = -ecanceled then ⟨.cancelled, error.message⟩
  else if error.code = -einval then ⟨.invalidArgument, error.message⟩
  else ⟨.failedPrecondition, error.message⟩

def encodeHalScalar (value : HalAdapterValue F) : HalScalar F := ⟨some value.type, some value⟩

/-- The loop of `do_write` that decodes the request and polls the stop token for each item. -/
def decodeWrites (stopped : ℕ → Bool) :
    ℕ → List (List Char) → List (HalItemWrite F) →
      Except GrpcStatus (List (HalAdapterReference × HalAdapterValue F))
  | _, _, [] => .ok []
  | poll, unique, write :: writes =>
    if stopped poll then .error ⟨.cancelled, "RPC cancelled"⟩
    else
      match decodeHalReference write.item, decodeHalScalar write.value with
      | some reference, some value =>
        if unique.contains (referenceKey reference) then
          .error ⟨.invalidArgument, "HAL write contains a duplicate item reference"⟩
        else
          match decodeWrites stopped (poll + 1) (referenceKey reference :: unique) writes with
          | .error status => .error status
          | .ok updates => .ok ((reference, value) :: updates)
      | _, _ =>
        .error ⟨.invalidArgument, "HAL write contains a mismatched reference or scalar oneof"⟩

def doWrite (hal : HalDirectory F) (stopped : ℕ → Bool) (memory : HalMemory F)
    (writes : List (HalItemWrite F)) : HalWriteOutcome F :=
  if kMaxHalBatchItems < writes.length then
    { memory, status := ⟨.resourceExhausted, "HAL write exceeds 1024 items"⟩ }
  else
    match decodeWrites stopped 0 [] writes with
    | .error status => { memory, status }
    | .ok updates =>
      match hal.writeMany stopped writes.length memory updates with
      | (memory, .error error) => { memory, status := halError error }
      | (memory, .ok (count, written)) =>
        if count ≠ updates.length then
          { memory
            status := ⟨.failedPrecondition,
              "one or more HAL items are missing, mistyped, or not writable"⟩ }
        else
          { memory
            status := ⟨.ok, ""⟩
            values := (writes.zip written).map fun entry =>
              { item := entry.1.item, value := encodeHalScalar entry.2 } }

end HalService

end LinuxcncCtrl
