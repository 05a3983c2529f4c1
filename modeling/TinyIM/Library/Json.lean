import TinyIM.Library.ByteOrder

namespace TinyIM.Library.Json

open ByteOrder

/-- A JSON value. A number with a fraction or an exponent is known by the `int`
that it converts to. -/
inductive Value
  | null
  | boolean (b : Bool)
  | integer (i : ℤ)
  | float (asInt : ℤ)
  | string (s : Bytes)
  | array (elements : List Value)
  | object (members : List (Bytes × Value))

/-- A parser and a printer of JSON. The parser throws on what is not JSON, and
the printer on a text that is not UTF-8, with a message. -/
structure Codec where
  parse : Bytes → Option Value
  dump : Value → Except Bytes Bytes

/-- The low 32 bits as a signed number. -/
def toInt32 (i : ℤ) : ℤ := i.bmod (2 ^ 32)

namespace Value

/-- `value(key, default)` for a text. It throws if this is not an object, and
if the member is not a text. -/
def text (key default : Bytes) : Value → Option Bytes
  | object members =>
    match members.lookup key with
    | none => some default
    | some (string s) => some s
    | some _ => none
  | _ => none

/-- `value(key, 0)`, which converts the member to `int`. -/
def int (key : Bytes) : Value → Option ℤ
  | object members =>
    match members.lookup key with
    | none => some 0
    | some (boolean b) => some (if b then 1 else 0)
    | some (integer i) => some (toInt32 i)
    | some (float i) => some i
    | some _ => none
  | _ => none

end Value

end TinyIM.Library.Json
