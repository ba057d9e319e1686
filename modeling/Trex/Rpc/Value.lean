/-
# The parameters of a request

`Json::Value` as far as the commands read it, and the parsing functions of `TrexRpcCommand`
(`trex_rpc_cmd.cpp`).  A function that parses either returns or throws; it never changes anything.
-/
import Mathlib.Data.List.Dedup
import Mathlib.Algebra.Order.Ring.Rat

namespace Trex.Rpc

/-! ## 1. Values -/

/-- `Json::Value`.  The last of several members with one name is the one that counts. -/
inductive Json
  | null
  | int (v : Int)
  | uint (v : Nat)
  | real (v : Rat)
  | string (s : String)
  | boolean (b : Bool)
  | array (vs : List Json)
  | object (members : List (String × Json))

namespace Json

/-- `isObject`. -/
def isObject : Json → Bool
  | object _ => true
  | _ => false

/-- `size`. -/
def size : Json → Nat
  | array vs => vs.length
  | object members => (members.map Prod.fst).dedup.length
  | _ => 0

/-- `operator[]` of an object. -/
def field (parent : Json) (name : String) : Json :=
  match parent with
  | object members => (members.reverse.lookup name).getD null
  | _ => null

/-- The number in a value. -/
def num? : Json → Option Rat
  | int v => some v
  | uint v => some v
  | real v => some v
  | _ => none

/-- An integer between two bounds. -/
def isIntegral (lo hi : Int) (v : Json) : Bool :=
  match v.num? with
  | some q => q.den == 1 && decide (lo ≤ q.num) && decide (q.num ≤ hi)
  | none => false

/-- `isUInt`. -/
def isUInt (v : Json) : Bool := v.isIntegral 0 (2 ^ 32 - 1)

/-- `isInt`. -/
def isInt (v : Json) : Bool := v.isIntegral (-2 ^ 31) (2 ^ 31 - 1)

/-- The integer of a value that passed such a check. -/
def asInt (v : Json) : Int := (v.num?.getD 0).num

/-- `json_type_to_name`. -/
def typeName : Json → String
  | null => "null"
  | int _ => "int"
  | uint _ => "uint"
  | real _ => "real"
  | string _ => "string"
  | boolean _ => "boolean"
  | array _ => "array"
  | object _ => "object"

end Json

/-- `operator[]` of an array. -/
def Json.at (parent : Json) (index : Nat) : Json :=
  match parent with
  | .array vs => vs.getD index .null
  | _ => .null

/-! ## 2. Parsing -/

/-- How a command can fail. -/
inductive RpcErr
  /-- `TREX_RPC_CMD_PARSE_ERR`: a field is missing. -/
  | missing (name : String)
  /-- `TREX_RPC_CMD_PARSE_ERR`: a field has another type. -/
  | wrongType (name is expecting : String)
  /-- `TREX_RPC_CMD_PARSE_ERR`, with another text. -/
  | parseErr (what : String)
  /-- `TREX_RPC_CMD_EXECUTE_ERR`. -/
  | executeErr (what : String)
  /-- An exception that `run` does not catch. -/
  | escapes (what : String)
  /-- No exception: an assertion fails, or what the source does has no meaning. -/
  | undefined
deriving DecidableEq, Repr

/-- `check_field_type`, and the first check of `check_field_type_common`. -/
def checkField (parent : Json) (name : String) : Except RpcErr Json :=
  if parent.isObject = false then .error (.escapes "internal parsing error")
  else
    match parent.field name with
    | .null => .error (.missing name)
    | v => .ok v

/-- The text of the library for a number that is no `int`. -/
def outOfIntRange : Json → String
  | .int _ => "LargestInt out of Int range"
  | .real _ => "double out of Int range"
  | _ => "LargestUInt out of Int range"

/-- The text of the library for a negative number. -/
def outOfUInt64Range : Json → String
  | .real _ => "double out of UInt64 range"
  | _ => "LargestInt out of UInt64 range"

/-- The checks of `FIELD_TYPE_BYTE` and what is read then; the library refuses a number that is no
`int`. -/
def byteOf (v : Json) (name : String) : Except RpcErr UInt8 :=
  if v.isUInt = false then .error (.wrongType name v.typeName "byte")
  else if v.isInt = false then .error (.escapes (outOfIntRange v))
  else if v.asInt > 0xFF then .error (.wrongType name v.typeName "byte")
  else .ok (UInt8.ofNat v.asInt.toNat)

/-- The checks of `FIELD_TYPE_UINT16`. -/
def uint16Of (v : Json) (name : String) : Except RpcErr UInt16 :=
  if v.isUInt = false then .error (.wrongType name v.typeName "uint16")
  else if v.isInt = false then .error (.escapes (outOfIntRange v))
  else if v.asInt > 0xFFFF then .error (.wrongType name v.typeName "uint16")
  else .ok (UInt16.ofNat v.asInt.toNat)

/-- The checks of `FIELD_TYPE_UINT32`. -/
def uint32Of (v : Json) (name : String) : Except RpcErr UInt32 :=
  if v.isUInt = false then .error (.wrongType name v.typeName "uint32")
  else .ok (UInt32.ofNat v.asInt.toNat)

/-- The checks of `FIELD_TYPE_UINT64`: a negative number passes them, and the library refuses it. -/
def uint64Of (v : Json) (name : String) : Except RpcErr UInt64 :=
  if v.isIntegral (-2 ^ 63) (2 ^ 63 - 1) = false then .error (.wrongType name v.typeName "uint64")
  else if v.asInt < 0 then .error (.escapes (outOfUInt64Range v))
  else .ok (UInt64.ofNat v.asInt.toNat)

/-- The checks of `FIELD_TYPE_INT`. -/
def intOf (v : Json) (name : String) : Except RpcErr Int32 :=
  if v.isInt = false then .error (.wrongType name v.typeName "int")
  else .ok (Int32.ofInt v.asInt)

/-- `parse_byte`. -/
def parseByte (parent : Json) (name : String) : Except RpcErr UInt8 := do
  let v ← checkField parent name
  byteOf v name

/-- `parse_uint32`. -/
def parseUInt32 (parent : Json) (name : String) : Except RpcErr UInt32 := do
  let v ← checkField parent name
  uint32Of v name

/-- `parse_uint64`. -/
def parseUInt64 (parent : Json) (name : String) : Except RpcErr UInt64 := do
  let v ← checkField parent name
  uint64Of v name

/-- `parse_int`. -/
def parseInt (parent : Json) (name : String) : Except RpcErr Int32 := do
  let v ← checkField parent name
  intOf v name

/-- `parse_bool`. -/
def parseBool (parent : Json) (name : String) : Except RpcErr Bool := do
  let v ← checkField parent name
  match v with
  | .boolean b => .ok b
  | _ => .error (.wrongType name v.typeName "bool")

/-- `parse_double`. -/
def parseDouble (parent : Json) (name : String) : Except RpcErr Rat := do
  let v ← checkField parent name
  match v.num? with
  | some q => .ok q
  | none => .error (.wrongType name v.typeName "double")

/-- `parse_string`. -/
def parseString (parent : Json) (name : String) : Except RpcErr String := do
  let v ← checkField parent name
  match v with
  | .string s => .ok s
  | _ => .error (.wrongType name v.typeName "string")

/-- `parse_object`. -/
def parseObject (parent : Json) (name : String) : Except RpcErr Json := do
  let v ← checkField parent name
  match v with
  | .object members => .ok (.object members)
  | _ => .error (.wrongType name v.typeName "object")

/-- `parse_choice`, from a table of texts with what they stand for. -/
def parseChoice {α : Type} (parent : Json) (name : String) (choices : List (String × α)) :
    Except RpcErr α :=
  let refused := RpcErr.parseErr ("field '" ++ name ++ "' can only be one of ["
    ++ " ,".intercalate (choices.map fun c => "'" ++ c.1 ++ "'") ++ "]")
  match parent.field name with
  | .null => .error (.missing name)
  | .string s =>
    match choices.lookup s with
    | some a => .ok a
    | none => .error refused
  | _ => .error refused

end Trex.Rpc
