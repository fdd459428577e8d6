import Stencil.Number.Places

/-!
# Numerals

Reading Lua numerals and writing numbers.

* `Numeral.read`: the number that a text spells, with blanks around it allowed: an integer if it
  fits, otherwise a float;
* `integerText`, `floatText`: the texts of numbers; a float that looks like an integer ends in
  `.0`.
-/

namespace Stencil.Lua

/-- A Lua number. -/
inductive Numeral where
  | int (i : Int64)
  | float (f : Float)
  deriving Inhabited

/-- Whether a byte is white space: tab, line feed, vertical tab, form feed, return or space. -/
def isSpace (b : UInt8) : Bool :=
  b == 0x20 || (0x09 ≤ b && b ≤ 0x0D)

/-- Whether a byte is a decimal digit. -/
def isDigit (b : UInt8) : Bool :=
  0x30 ≤ b && b ≤ 0x39

/-- Whether a byte is an ASCII letter. -/
def isLetter (b : UInt8) : Bool :=
  (0x41 ≤ b && b ≤ 0x5A) || (0x61 ≤ b && b ≤ 0x7A)

/-- The value of a hexadecimal digit. -/
def hexValue (b : UInt8) : Option Nat :=
  if isDigit b then some (b.toNat - 0x30)
  else if 0x41 ≤ b && b ≤ 0x46 then some (b.toNat - 0x41 + 10)
  else if 0x61 ≤ b && b ≤ 0x66 then some (b.toNat - 0x61 + 10)
  else none

/-- Whether a byte is a hexadecimal digit. -/
def isHexDigit (b : UInt8) : Bool :=
  (hexValue b).isSome

/-- The natural that decimal digits spell. -/
def decimalValue (ds : List UInt8) : Nat :=
  ds.foldl (fun n d => n * 10 + (d.toNat - 0x30)) 0

/-- The natural that hexadecimal digits spell. -/
def hexDigitsValue (ds : List UInt8) : Nat :=
  ds.foldl (fun n d => n * 16 + (hexValue d).getD 0) 0

namespace Numeral

/-- The digits of a number before and after the point, and what follows. -/
def splitDigits (digit : UInt8 → Bool) (cs : List UInt8) :
    List UInt8 × List UInt8 × List UInt8 :=
  let whole := cs.takeWhile digit
  match cs.dropWhile digit with
  | 0x2E :: rest => (whole, rest.takeWhile digit, rest.dropWhile digit)
  | rest => (whole, [], rest)

/-- The exponent after a mark, if the text is empty or spells one. Exponents beyond all doubles
are cut off. -/
def readExponent (isMark : UInt8 → Bool) (cs : List UInt8) : Option Int :=
  match cs with
  | [] => some 0
  | mark :: rest =>
    if !isMark mark then none
    else
      let (negative, digits) :=
        match rest with
        | 0x2D :: ds => (true, ds)
        | 0x2B :: ds => (false, ds)
        | ds => (false, ds)
      if digits.isEmpty || !digits.all isDigit then none
      else
        let value : Int := min (decimalValue digits) 1000000
        some (if negative then -value else value)

/-- Reads an unsigned decimal float. -/
def readDecimal (cs : List UInt8) : Option Float :=
  let (whole, fraction, rest) := splitDigits isDigit cs
  if whole.isEmpty && fraction.isEmpty then none
  else
    match readExponent (fun b => b == 0x65 || b == 0x45) rest with
    | some x => some (Binary.ofDecimal (decimalValue (whole ++ fraction)) (x - fraction.length))
    | none => none

/-- Reads an unsigned hexadecimal float, after its `0x`. -/
def readHex (cs : List UInt8) : Option Float :=
  let (whole, fraction, rest) := splitDigits isHexDigit cs
  if whole.isEmpty && fraction.isEmpty then none
  else
    match readExponent (fun b => b == 0x70 || b == 0x50) rest with
    | some x =>
      some (Binary.toFloat ⟨false, hexDigitsValue (whole ++ fraction), x - 4 * fraction.length⟩)
    | none => none

/-- Reads an unsigned numeral. -/
def readUnsigned (cs : List UInt8) : Option Numeral :=
  match cs with
  | 0x30 :: x :: rest =>
    if x == 0x78 || x == 0x58 then
      if !rest.isEmpty && rest.all isHexDigit then
        some (.int (Int64.ofNat (hexDigitsValue rest)))
      else (readHex rest).map .float
    else readPlain cs
  | cs => readPlain cs
where
  /-- Reads an unsigned decimal numeral; it is a float if it is too large for an integer. -/
  readPlain (cs : List UInt8) : Option Numeral :=
    if !cs.isEmpty && cs.all isDigit && decimalValue cs < Nat.pow 2 63 then
      some (.int (Int64.ofNat (decimalValue cs)))
    else (readDecimal cs).map .float

/-- The number with the opposite sign. -/
def negate : Numeral → Numeral
  | .int i => .int (-i)
  | .float f => .float (-f)

/-- Reads the numeral of a text, which may have blanks around it and a sign. -/
def read (cs : List UInt8) : Option Numeral :=
  let cs := ((cs.dropWhile isSpace).reverse.dropWhile isSpace).reverse
  match cs with
  | 0x2D :: rest =>
    if !rest.isEmpty && rest.all isDigit && decimalValue rest == Nat.pow 2 63 then
      some (.int Int64.minValue)
    else (readUnsigned rest).map negate
  | 0x2B :: rest => readUnsigned rest
  | rest => readUnsigned rest

end Numeral

/-- The text of an integer. -/
def integerText (i : Int64) : String :=
  toString i.toInt

/-- The text of a float with a number of significant digits. -/
def generalFloatText (digits : Nat) (f : Float) : String :=
  let b := Binary.ofFloat f
  if f.isNaN then (if b.negative then "-nan" else "nan")
  else (if b.negative then "-" else "") ++
    (if f.isInf then "inf" else Number.generalText false digits b.m b.e)

/-- The text of a float: fourteen significant digits, and `.0` if it looks like an integer. -/
def floatText (f : Float) : String :=
  let text := generalFloatText 14 f
  if text.toList.all fun c => c == '-' || c.isDigit then text ++ ".0" else text

end Stencil.Lua
