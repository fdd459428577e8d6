import Stencil.Lua.Arith
import Stencil.Lua.System

/-!
# Values

The values of Lua. Tables, functions written in Lua, objects of the host and coroutines are places
in a store; two of them are equal if they are the same place.

* `Key`: the values that can be keys of a table, with floats that equal an integer counted as the
  integer;
* `Value.rawEqual`: equality without metamethods.
-/

namespace Stencil.Lua

/-- A Lua value. -/
inductive Value where
  | nil
  | bool (b : Bool)
  | int (i : Int64)
  | float (f : Float)
  | string (s : Bytes)
  | table (place : Nat)
  /-- A function written in Lua. -/
  | closure (place : Nat)
  /-- A library function. -/
  | builtin (b : Builtin)
  /-- A library function with a state of its own. -/
  | native (place : Nat)
  /-- An object of the host. -/
  | object (place : Nat)
  | thread (place : Nat)
  deriving Inhabited

/-- A value that can be the key of a table. -/
inductive Key where
  | bool (b : Bool)
  | int (i : Int64)
  /-- A float that no integer equals, by its bits. -/
  | float (bits : UInt64)
  | string (s : Bytes)
  | table (place : Nat)
  | closure (place : Nat)
  | builtin (b : Builtin)
  | native (place : Nat)
  | object (place : Nat)
  | thread (place : Nat)
  deriving DecidableEq, Hashable, Inhabited

namespace Value

/-- A text as a value. -/
def text (s : String) : Value :=
  .string (bytesOf s)

/-- A datum as a value. -/
def ofDatum : Datum → Value
  | .nil => .nil
  | .bool b => .bool b
  | .int i => .int i
  | .float f => .float f
  | .string s => .string s

/-- Whether a value is nil. -/
def isNil : Value → Bool
  | .nil => true
  | _ => false

/-- Whether a value counts as true. -/
def truth : Value → Bool
  | .nil | .bool false => false
  | _ => true

/-- A number as a value. -/
def ofNumeral : Numeral → Value
  | .int i => .int i
  | .float f => .float f

/-- The number of a value that is one. -/
def number? : Value → Option Numeral
  | .int i => some (.int i)
  | .float f => some (.float f)
  | _ => none

/-- The number of a value that is one, or a string that spells one. -/
def toNumber : Value → Option Numeral
  | .int i => some (.int i)
  | .float f => some (.float f)
  | .string s => Numeral.read s.data.toList
  | _ => none

/-- The string of a value that is one, or a number. -/
def toBytes : Value → Option Bytes
  | .string s => some s
  | .int i => some (bytesOf (integerText i))
  | .float f => some (bytesOf (floatText f))
  | _ => none

/-- Whether a value is a function. -/
def isFunction : Value → Bool
  | .closure _ | .builtin _ | .native _ => true
  | _ => false

/-- The name of the type of a value. -/
def typeName : Value → String
  | .nil => "nil"
  | .bool _ => "boolean"
  | .int _ | .float _ => "number"
  | .string _ => "string"
  | .table _ => "table"
  | .closure _ | .builtin _ | .native _ => "function"
  | .object _ => "userdata"
  | .thread _ => "thread"

/-- Equality without metamethods. -/
def rawEqual : Value → Value → Bool
  | .nil, .nil => true
  | .bool a, .bool b => a == b
  | .int a, .int b => a == b
  | .float a, .float b => a == b
  | .int a, .float b => Numeral.floatToInt b == some a
  | .float a, .int b => Numeral.floatToInt a == some b
  | .string a, .string b => a == b
  | .table a, .table b => a == b
  | .closure a, .closure b => a == b
  | .builtin a, .builtin b => a == b
  | .native a, .native b => a == b
  | .object a, .object b => a == b
  | .thread a, .thread b => a == b
  | _, _ => false

/-- The first of several values; nil if there is none. -/
def first (vs : List Value) : Value :=
  vs.headD .nil

end Value

namespace Key

/-- The key of a value; nil and a float that is not a number have none. -/
def ofValue : Value → Option Key
  | .nil => none
  | .bool b => some (.bool b)
  | .int i => some (.int i)
  | .float f =>
    if f.isNaN then none
    else
      match Numeral.floatToInt f with
      | some i => some (.int i)
      | none => some (.float f.toBits)
  | .string s => some (.string s)
  | .table r => some (.table r)
  | .closure r => some (.closure r)
  | .builtin b => some (.builtin b)
  | .native r => some (.native r)
  | .object r => some (.object r)
  | .thread r => some (.thread r)

/-- The value of a key. -/
def toValue : Key → Value
  | .bool b => .bool b
  | .int i => .int i
  | .float bits => .float (Float.ofBits bits)
  | .string s => .string s
  | .table r => .table r
  | .closure r => .closure r
  | .builtin b => .builtin b
  | .native r => .native r
  | .object r => .object r
  | .thread r => .thread r

/-- The key of a text. -/
def text (s : String) : Key :=
  .string (bytesOf s)

end Key

end Stencil.Lua
