import MuduoPlus.NumberText

namespace MuduoPlus

/-- A value of `nlohmann::json`. The members of an object stand in the order of its map. -/
inductive Json where
  | null
  | boolean (b : Bool)
  | unsigned (n : UInt64)
  | integer (i : Int64)
  | float (x : Float)
  | string (s : Bytes)
  | array (items : List Json)
  | object (members : List (Bytes × Json))

/-- What is used of the library: `json::parse` without exceptions, and `dump`. -/
structure JsonLibrary where
  parse : Bytes → Option Json
  dump : Json → Bytes

/-- A library that reads one text, as `j`. -/
def JsonLibrary.readerOf (text : Bytes) (j : Json) : JsonLibrary where
  parse s := if s = text then some j else none
  dump _ := []

/-- The cast of a `double` to `uint32_t`, by way of a 64-bit integer. -/
def uint32OfFloat (x : Float) : UInt32 :=
  match x.toModel.unpack with
  | .finite sign m e _ =>
    let n := (ratio m e).1 / (ratio m e).2
    if n < 2 ^ 63 then UInt32.ofInt (if isNegative sign then -n else n) else 0
  | _ => 0

namespace Json

/-- `get<std::string>()`; `none` is the exception on another type. -/
def getString : Json → Option Bytes
  | .string s => some s
  | _ => none

/-- `get<unsigned>()`: every number is taken, and so is a boolean. -/
def getUnsigned : Json → Option UInt32
  | .unsigned n => some n.toUInt32
  | .integer i => some (UInt32.ofInt i.toInt)
  | .float x => some (uint32OfFloat x)
  | .boolean b => some (if b then 1 else 0)
  | _ => none

/-- `get<double>()`. -/
def getDouble : Json → Option Float
  | .unsigned n => some (Float.ofNat n.toNat)
  | .integer i => some (Float.ofInt i.toInt)
  | .float x => some x
  | _ => none

/-- `j.value(key, default)`, which raises where `j` is not an object. -/
def value {α : Type} (get : Json → Option α) (key : Bytes) (default : α) : Json → Option α
  | .object members =>
    match members.lookup key with
    | some member => get member
    | none => some default
  | _ => none

end Json

end MuduoPlus
