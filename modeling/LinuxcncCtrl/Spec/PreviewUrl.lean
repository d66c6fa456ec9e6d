import LinuxcncCtrl.Lib.StringView

/-! The target of a program preview in telemetry_websocket_server.cc: `hex`, `decode_query_value` and
`preview_parameters`. A target is its bytes. Every access to a view is checked, so that a read outside
of it would be seen as an error; `none` is `std::nullopt`. -/

namespace LinuxcncCtrl

open Lib

namespace PreviewUrl

/-- The value of a digit, or -1. A `char` is signed here. -/
def hex (value : UInt8) : ℤ :=
  let value := value.toInt8.toInt
  if 48 ≤ value ∧ value ≤ 57 then value - 48
  else if 97 ≤ value ∧ value ≤ 102 then value - 97 + 10
  else if 65 ≤ value ∧ value ≤ 70 then value - 65 + 10
  else -1

def decodeFrom (value : List UInt8) (index : ℕ) (decoded : List UInt8) :
    Except OutOfRange (Option (List UInt8)) :=
  if index < value.length then do
    let byte ← StringView.read value index
    if byte = '+'.toUInt8 then decodeFrom value (index + 1) (decoded ++ [' '.toUInt8])
    else if byte = '%'.toUInt8 then
      if value.length ≤ index + 2 then pure none
      else
        let high := hex (← StringView.read value (index + 1))
        let low := hex (← StringView.read value (index + 2))
        if high < 0 ∨ low < 0 then pure none
        else decodeFrom value (index + 3) (decoded ++ [(high.toNat <<< 4 ||| low.toNat).toUInt8])
    else decodeFrom value (index + 1) (decoded ++ [byte])
  else pure (some decoded)
termination_by value.length - index

def decodeQueryValue (value : List UInt8) : Except OutOfRange (Option (List UInt8)) :=
  decodeFrom value 0 []

def bytes (text : String) : List UInt8 := text.toList.map Char.toUInt8

def previewPath : List UInt8 := bytes "/v1/program-preview?"

def workspaceId : List UInt8 := bytes "workspace_id"

def relativePath : List UInt8 := bytes "relative_path"

def parameterPair (workspace relative : List UInt8) : Option (List UInt8 × List UInt8) :=
  if workspace.isEmpty || relative.isEmpty then none else some (workspace, relative)

def readQuery (query workspace relative : List UInt8) :
    Except OutOfRange (Option (List UInt8 × List UInt8)) :=
  if query.isEmpty then pure (parameterPair workspace relative)
  else do
    let ampersand := StringView.find query '&'.toUInt8
    let item ← StringView.substr query 0 ampersand
    match StringView.find item '='.toUInt8 with
    | none => pure none
    | some equals =>
      let name ← StringView.substr item 0 (some equals)
      let text ← StringView.substr item (equals + 1) none
      match ← decodeQueryValue text with
      | none => pure none
      | some decoded =>
        let workspace := if name = workspaceId then decoded else workspace
        let relative := if name = relativePath then decoded else relative
        match ampersand with
        | none => pure (parameterPair workspace relative)
        | some position =>
          match _hrest : StringView.removePrefix query (position + 1) with
          | .error outside => .error outside
          | .ok rest => readQuery rest workspace relative
termination_by query.length
decreasing_by
  have hlength := StringView.removePrefix_ok _hrest
  omega

def previewParameters (target : List UInt8) : Except OutOfRange (Option (List UInt8 × List UInt8)) :=
  if previewPath.isPrefixOf target then do
    readQuery (← StringView.substr target previewPath.length none) [] []
  else pure none

/-- The lower and the upper case digit of a value. -/
def hexDigits (value : ℕ) : List UInt8 :=
  [(bytes "0123456789abcdef").getD value 0, (bytes "0123456789ABCDEF").getD value 0]

/-- What an encoder may write for some bytes: each one as a triplet, or as itself if it has no meaning
of its own in a query, or a space as a plus. -/
inductive PercentEncodes : List UInt8 → List UInt8 → Prop
  | nil : PercentEncodes [] []
  | plain {byte : UInt8} {decoded text : List UInt8} :
      byte ≠ '%'.toUInt8 → byte ≠ '+'.toUInt8 → byte ≠ '&'.toUInt8 → byte ≠ '='.toUInt8 →
      PercentEncodes decoded text → PercentEncodes (byte :: decoded) (byte :: text)
  | space {decoded text : List UInt8} :
      PercentEncodes decoded text → PercentEncodes (' '.toUInt8 :: decoded) ('+'.toUInt8 :: text)
  | triplet {byte high low : UInt8} {decoded text : List UInt8} :
      high ∈ hexDigits (byte.toNat / 16) → low ∈ hexDigits (byte.toNat % 16) →
      PercentEncodes decoded text → PercentEncodes (byte :: decoded) ('%'.toUInt8 :: high :: low :: text)

structure QueryParameter where
  name : List UInt8
  value : List UInt8
  text : List UInt8
  name_ampersand : '&'.toUInt8 ∉ name
  name_equals : '='.toUInt8 ∉ name
  encoded : PercentEncodes value text

def QueryParameter.item (parameter : QueryParameter) : List UInt8 :=
  parameter.name ++ '='.toUInt8 :: parameter.text

def valuesOf (name : List UInt8) (parameters : List QueryParameter) : List (List UInt8) :=
  (parameters.filter fun parameter => parameter.name = name).map QueryParameter.value

def previewTarget (parameters : List QueryParameter) : List UInt8 :=
  previewPath ++ ['&'.toUInt8].intercalate (parameters.map QueryParameter.item)

end PreviewUrl

end LinuxcncCtrl
