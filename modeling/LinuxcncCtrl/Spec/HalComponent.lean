import LinuxcncCtrl.Lib.Stores

/-! The part of `hal/adapter.cc` that a remote component uses: typed HAL values, the slab its items
are allocated from, and `LinuxCncHalComponent` with its checked writes. The HAL library itself is an
input: the results of its calls and the values it holds are fields of `HalCalls`. The data pointer of
an existing item is taken to be valid. A component keeps the list of the values written to it. -/

namespace LinuxcncCtrl

abbrev HalName := List Char

inductive HalAdapterType
  | bit | float | s32 | u32 | s64 | u64
  deriving DecidableEq

/-- `HalAdapterValue`; `F` stands for `double`. -/
inductive HalAdapterValue (F : Type)
  | bit (value : Bool)
  | float (value : F)
  | s32 (value : Int32)
  | u32 (value : UInt32)
  | s64 (value : Int64)
  | u64 (value : UInt64)
  deriving DecidableEq

namespace HalAdapterValue

variable {F : Type}

def type : HalAdapterValue F → HalAdapterType
  | .bit _ => .bit
  | .float _ => .float
  | .s32 _ => .s32
  | .u32 _ => .u32
  | .s64 _ => .s64
  | .u64 _ => .u64

def same [BEq F] : HalAdapterValue F → HalAdapterValue F → Bool
  | .bit a, .bit b => a == b
  | .float a, .float b => a == b
  | .s32 a, .s32 b => a == b
  | .u32 a, .u32 b => a == b
  | .s64 a, .s64 b => a == b
  | .u64 a, .u64 b => a == b
  | _, _ => false

end HalAdapterValue

/-- `HalScalar` on the wire; `none` is a type outside the enumeration or a value that is not set. -/
structure HalScalar (F : Type) where
  type : Option HalAdapterType
  value : Option (HalAdapterValue F)

def decodeHalScalar {F : Type} (source : HalScalar F) : Option (HalAdapterValue F) :=
  match source.type, source.value with
  | some type, some value => if value.type = type then some value else none
  | _, _ => none

def typedValue {F : Type} (type : HalAdapterType) (scalar : HalScalar F) :
    Option (HalAdapterValue F) :=
  (decodeHalScalar scalar).filter fun value => decide (value.type = type)

inductive HalPinDirection
  | input | output | io
  deriving DecidableEq

inductive HalParamDirection
  | readOnly | readWrite
  deriving DecidableEq

/-- An item is a pin or a parameter, each with its own directions. -/
inductive ItemDirection
  | pin (direction : HalPinDirection)
  | param (direction : HalParamDirection)
  deriving DecidableEq

/-- What a constructor of a component may throw: a `HalAdapterError`, another `std::exception`, or
anything else. -/
inductive CreateFailure
  | hal (message : String) (code : ℤ)
  | exception (what : String)
  | unknown

def enoent : ℤ := 2
def ebusy : ℤ := 16
def einval : ℤ := 22

structure HalAllocationSlab where
  capacity : ℕ
  free : List ℕ

namespace HalAllocationSlab

def create (capacity : ℕ) : HalAllocationSlab := { capacity, free := List.range capacity }

def acquire (slab : HalAllocationSlab) : Option (ℕ × HalAllocationSlab) :=
  match slab.free with
  | [] => none
  | index :: rest => some (index, { slab with free := rest })

def release (slab : HalAllocationSlab) (index : ℕ) : HalAllocationSlab :=
  if slab.capacity ≤ index then slab else { slab with free := index :: slab.free }

end HalAllocationSlab

/-- The results of the HAL calls made by one operation, and the values HAL holds by full name.
`thrown` is an exception from elsewhere while a component is being built. -/
structure HalCalls (F : Type) where
  halInit : ℤ
  itemNew : HalName → ℤ
  halReady : ℤ
  thrown : Option CreateFailure
  read : HalName → HalAdapterValue F

structure HalComponentItem where
  suffix : HalName
  fullName : HalName
  type : HalAdapterType
  direction : ItemDirection
  slabSlot : ℕ

/-- `LinuxCncHalComponent`; `writes` are the values written to its items, oldest first. -/
structure HalComponent (F : Type) where
  name : HalName
  namePrefix : HalName
  ready : Bool := false
  items : List HalComponentItem := []
  writes : List (HalName × HalAdapterValue F) := []

namespace HalComponent

variable {F : Type}

/-- `full_name`; empty when the suffix is empty or the name is too long. -/
def fullName (halNameLen : ℕ) (namePrefix suffix : HalName) : HalName :=
  if suffix = [] then []
  else
    let result := if namePrefix = [] then suffix else namePrefix ++ '.' :: suffix
    if halNameLen < result.length then [] else result

def openComponent (halNameLen : ℕ) (calls : HalCalls F) (name namePrefix : HalName) :
    Except CreateFailure (HalComponent F) :=
  if name = [] ∨ halNameLen < name.length then
    .error (.hal "invalid client HAL component name" (-einval))
  else
    let namePrefix := if namePrefix = [] then name else namePrefix
    if halNameLen < namePrefix.length then
      .error (.hal "invalid client HAL component prefix" (-einval))
    else if calls.halInit ≤ 0 then
      .error (.hal ("hal_init failed for client component '" ++ String.ofList name ++ "'")
        calls.halInit)
    else .ok { name, namePrefix }

def newItemError (direction : ItemDirection) (full : HalName) : String :=
  match direction with
  | .pin _ => "hal_pin_new failed for '" ++ String.ofList full ++ "'"
  | .param _ => "hal_param_new failed for '" ++ String.ofList full ++ "'"

/-- `add_pin` and `add_param`; `none` is their result `false`. A failing HAL call gives the slot
back. -/
def addItem (halNameLen : ℕ) (calls : HalCalls F) (slab : HalAllocationSlab)
    (component : HalComponent F) (suffix : HalName) (type : HalAdapterType)
    (direction : ItemDirection) :
    Except CreateFailure (Option (HalAllocationSlab × HalComponent F)) :=
  if component.ready = true ∨ suffix = [] ∨ ∃ item ∈ component.items, item.suffix = suffix then
    .ok none
  else
    let full := fullName halNameLen component.namePrefix suffix
    if full = [] then .ok none
    else
      match slab.acquire with
      | none => .error (.hal "global HAL dynamic item quota reached" (-ebusy))
      | some (slot, rest) =>
        if calls.itemNew full ≠ 0 then
          .error (.hal (newItemError direction full) (calls.itemNew full))
        else
          let item : HalComponentItem :=
            { suffix, fullName := full, type, direction, slabSlot := slot }
          .ok (some (rest, { component with items := component.items ++ [item] }))

def setReady (component : HalComponent F) (calls : HalCalls F) :
    Except CreateFailure (HalComponent F) :=
  if calls.halReady ≠ 0 then .error (.hal "hal_ready failed" calls.halReady)
  else .ok { component with ready := true }

def accepts (component : HalComponent F) (suffix : HalName) (value : HalAdapterValue F) : Bool :=
  match component.items.find? fun item => decide (item.suffix = suffix) with
  | some item => decide (item.type = value.type) && decide (item.direction ≠ .pin .input)
  | none => false

def write (component : HalComponent F) (suffix : HalName) (value : HalAdapterValue F) :
    HalComponent F × Bool :=
  if component.accepts suffix value then
    ({ component with writes := component.writes ++ [(suffix, value)] }, true)
  else (component, false)

def read (component : HalComponent F) (calls : HalCalls F) (suffix : HalName) :
    Option (HalAdapterValue F) :=
  (component.items.find? fun item => decide (item.suffix = suffix)).map fun item =>
    calls.read item.fullName

/-- The destructor: every slot goes back to the slab. -/
def close (component : HalComponent F) (slab : HalAllocationSlab) : HalAllocationSlab :=
  component.items.foldl (fun slab item => slab.release item.slabSlot) slab

def lastWritten (component : HalComponent F) (suffix : HalName) : Option (HalAdapterValue F) :=
  ((component.writes.filter fun write => decide (write.1 = suffix)).getLast?).map Prod.snd

/-- The memory of HAL after writes. `address` says where the data pointer of an item points; pins that
are linked to one signal have one address. -/
def stored (address : HalName → ℕ) (memory : ℕ → HalAdapterValue F)
    (writes : List (HalName × HalAdapterValue F)) : ℕ → HalAdapterValue F :=
  Lib.storeAll memory (writes.map fun write => (address write.1, write.2))

end HalComponent

end LinuxcncCtrl
