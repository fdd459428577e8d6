import Stencil.Lua.Library.Argument

/-!
# The library `math`

Functions on numbers. Integers stay integers where the result is one.
-/

namespace Stencil.Lua.Mathematics

open Argument

/-- A function on floats. -/
def onFloat (f : Float → Float) (vs : List Value) : Run (List Value) := do
  return [.float (f (← float 1 vs))]

/-- A float as an integer, if it fits. -/
def narrowed (f : Float) : Value :=
  match Numeral.floatToInt f with
  | some i => .int i
  | none => .float f

/-- A number rounded by a function, as an integer if it fits. -/
def rounded (f : Float → Float) (vs : List Value) : Run (List Value) := do
  match value 1 vs with
  | .int i => return [.int i]
  | _ => return [narrowed (f (← float 1 vs))]

/-- The absolute value of a number. -/
def abs (vs : List Value) : Run (List Value) := do
  match value 1 vs with
  | .int i => return [.int (if i < 0 then -i else i)]
  | _ => return [.float (← float 1 vs).abs]

/-- The remainder of floats with the sign of the first. -/
def floatRemainder (a b : Float) : Float :=
  if a.isNaN || b.isNaN || a.isInf || b == 0.0 then 0.0 / 0.0
  else if b.isInf then a
  else Binary.rem a b

/-- The remainder of a division that truncates. -/
def fmod (vs : List Value) : Run (List Value) := do
  match value 1 vs, value 2 vs with
  | .int a, .int b =>
    if b == 0 then refuse 2 (bytesOf "zero") else return [.int (Int64.ofInt (a.toInt.tmod b.toInt))]
  | _, _ =>
    let a ← float 1 vs
    let b ← float 2 vs
    return [.float (floatRemainder a b)]

/-- The whole part of a number and the rest. -/
def modf (vs : List Value) : Run (List Value) := do
  match value 1 vs with
  | .int i => return [.int i, .float 0.0]
  | _ =>
    let x ← float 1 vs
    let whole := if x < 0.0 then x.ceil else x.floor
    return [.float whole, .float (if x == whole then 0.0 else x - whole)]

/-- The logarithm of a number, to a base if one is given. -/
def log (vs : List Value) : Run (List Value) := do
  let x ← float 1 vs
  if isAbsent 2 vs then return [.float x.log]
  else
    let base ← float 2 vs
    return [.float (if base == 2.0 then x.log2 else if base == 10.0 then x.log10
      else x.log / base.log)]

/-- The angle of a point. -/
def atan (vs : List Value) : Run (List Value) := do
  let y ← float 1 vs
  let x ← if isAbsent 2 vs then pure 1.0 else float 2 vs
  return [.float (Float.atan2 y x)]

/-- The ratio of a circle to its diameter. -/
def pi : Float := 3.141592653589793

/-- The argument that none of the others exceeds, by a comparison. -/
def extreme (exceeds : Value → Value → Run Bool) : Value → List Value → Run Value
  | best, [] => pure best
  | best, v :: vs => do
    if ← exceeds v best then extreme exceeds v vs else extreme exceeds best vs

/-- The greatest argument. -/
def max (vs : List Value) : Run (List Value) := do
  match vs with
  | [] => refuse 1 (bytesOf "value expected")
  | v :: rest => return [← extreme (fun a b => Run.lessThan 0 b a) v rest]

/-- The least argument. -/
def min (vs : List Value) : Run (List Value) := do
  match vs with
  | [] => refuse 1 (bytesOf "value expected")
  | v :: rest => return [← extreme (fun a b => Run.lessThan 0 a b) v rest]

/-- The integer that a value equals or spells. -/
def tointeger (vs : List Value) : Run (List Value) := do
  let v ← any 1 vs
  match v.toNumber.bind Numeral.toInt with
  | some i => return [.int i]
  | none => return [.nil]

/-- Whether a number is an integer or a float. -/
def type (vs : List Value) : Run (List Value) := do
  match ← any 1 vs with
  | .int _ => return [.text "integer"]
  | .float _ => return [.text "float"]
  | _ => return [.nil]

/-- Whether an integer is below another as a natural. -/
def ult (vs : List Value) : Run (List Value) := do
  let a ← integer 1 vs
  let b ← integer 2 vs
  return [.bool (a.toUInt64 < b.toUInt64)]

/-- Asks the system for a random number. -/
def drawn (given : List Datum) : Run (List Value) :=
  Run.request ByteArray.empty (.plain .mathRandom given)

/-- A random integer between bounds. -/
def between (low high : Int64) : Run (List Value) := do
  require (low ≤ high) 1 "interval is empty"
  drawn [.int low, .int high]

/-- A random float below one, or a random integer between bounds. -/
def random (vs : List Value) : Run (List Value) := do
  match vs.length with
  | 0 => drawn []
  | 1 =>
    let high ← integer 1 vs
    if high == 0 then between Int64.minValue Int64.maxValue else between 1 high
  | 2 =>
    let low ← integer 1 vs
    let high ← integer 2 vs
    between low high
  | _ => Run.complain (bytesOf "wrong number of arguments")

/-- Starts the sequence of random numbers at a number. -/
def randomseed (vs : List Value) : Run (List Value) := do
  if vs.isEmpty then Run.request ByteArray.empty (.plain .mathRandomseed [])
  else
    let n ← number 1 vs
    let start : Int64 :=
      match n with
      | .int i => i
      | .float f => (Numeral.floatToInt f).getD f.toBits.toInt64
    Run.request ByteArray.empty (.plain .mathRandomseed [.int start, .int (← integerOr 2 vs 0)])

end Stencil.Lua.Mathematics
