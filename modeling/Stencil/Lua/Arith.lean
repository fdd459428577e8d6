import Stencil.Lua.Syntax

/-!
# Arithmetic

Operators on numbers. Integers wrap around at 64 bits; an operator on an integer and a float works
on floats; bitwise operators need integers.

* `arithmetic`: the result of an operator on two numbers, or why there is none;
* `below`, `atMost`: the exact order of numbers.
-/

namespace Stencil.Lua

/-- Why an operator on numbers has no result. -/
inductive ArithFault where
  /-- A division of integers by zero. -/
  | divideByZero
  /-- A remainder of integers by zero. -/
  | moduloByZero
  /-- A float that no integer equals. -/
  | noInteger
  deriving Repr, BEq, DecidableEq, Inhabited

namespace Numeral

/-- A number as a float. -/
def toFloat : Numeral → Float
  | .int i => i.toFloat
  | .float f => f

/-- The integer that a float equals. -/
def floatToInt (f : Float) : Option Int64 :=
  if f.floor == f && -9223372036854775808.0 ≤ f && f < 9223372036854775808.0 then some f.toInt64
  else none

/-- The integer that a number equals. -/
def toInt : Numeral → Option Int64
  | .int i => some i
  | .float f => floatToInt f

/-- Whether a number is zero. -/
def isZero : Numeral → Bool
  | .int i => i == 0
  | .float f => f == 0.0

/-- Whether two numbers are equal. -/
def equal : Numeral → Numeral → Bool
  | .int a, .int b => a == b
  | .float a, .float b => a == b
  | .int a, .float b => floatToInt b == some a
  | .float a, .int b => floatToInt a == some b

/-- Whether an integer is below a float. -/
def intBelow (i : Int64) (f : Float) : Bool :=
  if f.isNaN then false
  else if f ≥ 9223372036854775808.0 then true
  else if f ≤ -9223372036854775808.0 then false
  else i < f.ceil.toInt64

/-- Whether a float is below an integer. -/
def floatBelow (f : Float) (i : Int64) : Bool :=
  if f.isNaN then false
  else if f ≥ 9223372036854775808.0 then false
  else if f < -9223372036854775808.0 then true
  else f.floor.toInt64 < i

/-- Whether a number is below another. -/
def below : Numeral → Numeral → Bool
  | .int a, .int b => a < b
  | .float a, .float b => a < b
  | .int a, .float b => intBelow a b
  | .float a, .int b => floatBelow a b

/-- Whether a number is below another, or equal to it. -/
def atMost (a b : Numeral) : Bool :=
  a.below b || a.equal b

end Numeral

/-- The quotient of integers rounded down. -/
def divideInt (a b : Int64) : Int64 :=
  Int64.ofInt (a.toInt.fdiv b.toInt)

/-- The remainder of integers with the sign of the second. -/
def moduloInt (a b : Int64) : Int64 :=
  Int64.ofInt (a.toInt.fmod b.toInt)

/-- The remainder of floats with the sign of the second. -/
def moduloFloat (a b : Float) : Float :=
  if a.isNaN || b.isNaN || a.isInf || b == 0.0 then 0.0 / 0.0
  else if b.isInf then
    if (a < 0.0 && b > 0.0) || (a > 0.0 && b < 0.0) then b else a
  else
    let m := Binary.rem a b
    if (m > 0.0 && b < 0.0) || (m < 0.0 && b > 0.0) then m + b else m

/-- An integer shifted left by a number of bits; right if the number is negative. Zeros come in. -/
def shiftLeft (a n : Int64) : Int64 :=
  if n ≤ -64 || n ≥ 64 then 0
  else if n ≥ 0 then (a.toUInt64 <<< n.toUInt64).toInt64
  else (a.toUInt64 >>> (-n).toUInt64).toInt64

/-- Whether an operator is bitwise. -/
def BinaryOp.isBitwise : BinaryOp → Bool
  | .band | .bor | .bxor | .shl | .shr => true
  | _ => false

/-- A bitwise operator on integers. -/
def bitwise (op : BinaryOp) (a b : Int64) : Int64 :=
  match op with
  | .band => a &&& b
  | .bor => a ||| b
  | .bxor => a ^^^ b
  | .shl => shiftLeft a b
  | .shr => shiftLeft a (if b ≤ -64 then 64 else -b)
  | _ => 0

/-- An operator on floats. -/
def floatArith (op : BinaryOp) (a b : Float) : Float :=
  match op with
  | .add => a + b
  | .sub => a - b
  | .mul => a * b
  | .div => a / b
  | .idiv => (a / b).floor
  | .mod => moduloFloat a b
  | .pow => if b == 2.0 then a * a else Float.pow a b
  | _ => 0.0

/-- An arithmetic or bitwise operator on numbers. -/
def arithmetic (op : BinaryOp) (a b : Numeral) : Except ArithFault Numeral :=
  if op.isBitwise then
    match a.toInt, b.toInt with
    | some x, some y => .ok (.int (bitwise op x y))
    | _, _ => .error .noInteger
  else
    match op, a, b with
    | .add, .int x, .int y => .ok (.int (x + y))
    | .sub, .int x, .int y => .ok (.int (x - y))
    | .mul, .int x, .int y => .ok (.int (x * y))
    | .idiv, .int x, .int y => if y == 0 then .error .divideByZero else .ok (.int (divideInt x y))
    | .mod, .int x, .int y => if y == 0 then .error .moduloByZero else .ok (.int (moduloInt x y))
    | op, a, b => .ok (.float (floatArith op a.toFloat b.toFloat))

/-- The result of an operator on constants, where it can be known ahead: not for a division by
zero, nor for a result that is zero or not a number. -/
def foldBinary (op : BinaryOp) (a b : Numeral) : Option Numeral :=
  match op with
  | .eq | .ne | .lt | .le | .gt | .ge => none
  | _ =>
    if (op == .div || op == .idiv || op == .mod) && b.isZero then none
    else
      match arithmetic op a b with
      | .ok (.int i) => some (.int i)
      | .ok (.float f) => if f == 0.0 || f.isNaN then none else some (.float f)
      | .error _ => none

/-- The result of a sign or a bitwise complement on a constant, where it can be known ahead. -/
def foldUnary (op : UnaryOp) (a : Numeral) : Option Numeral :=
  match op with
  | .neg =>
    match a with
    | .int i => some (.int (-i))
    | .float f => if f == 0.0 || f.isNaN then none else some (.float (-f))
  | .bnot => a.toInt.map fun i => .int (~~~i)
  | _ => none

end Stencil.Lua
