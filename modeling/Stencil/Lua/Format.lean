import Stencil.Lua.Token

/-!
# Formatted values

How `string.format` lays out a value: with a sign, a number of places, and blanks or zeros up to a
width. A conversion is written as a percent sign, flags, a width, a precision and a letter.

* `Layout.read`: the layout of a conversion;
* `Layout.integer`, `Layout.unsigned`, `Layout.float`, `Layout.bytes`: values in a layout;
* `quotedBytes`, `quotedFloat`: values as Lua source.
-/

namespace Stencil.Lua

/-- The layout of a conversion. -/
structure Layout where
  left : Bool := false
  plus : Bool := false
  blank : Bool := false
  alternate : Bool := false
  zero : Bool := false
  width : Nat := 0
  precision : Option Nat := none
  deriving Repr, BEq, DecidableEq, Inhabited

namespace Layout

/-- A layout with a flag set. -/
def withFlag (l : Layout) (flag : UInt8) : Layout :=
  match flag with
  | 0x2D => { l with left := true }
  | 0x2B => { l with plus := true }
  | 0x20 => { l with blank := true }
  | 0x23 => { l with alternate := true }
  | 0x30 => { l with zero := true }
  | _ => l

/-- At most two digits at the start, and what follows them. -/
def twoDigits (cs : List UInt8) : List UInt8 × List UInt8 :=
  let digits := (cs.take 2).takeWhile isDigit
  (digits, cs.drop digits.length)

/-- The layout that the bytes between the percent sign and the letter spell, if they do: some of
the flags, a width of at most two digits that does not start with a zero and, if `precise`, a point
and at most two digits. -/
def read (flags : List UInt8) (precise : Bool) (cs : List UInt8) : Option Layout :=
  let marks := cs.takeWhile flags.contains
  let l := marks.foldl withFlag {}
  let cs := cs.drop marks.length
  if cs.head? == some 0x30 then none
  else
    let (width, cs) := twoDigits cs
    let l := { l with width := decimalValue width }
    match cs with
    | [] => some l
    | 0x2E :: cs =>
      let (digits, cs) := twoDigits cs
      if precise && cs.isEmpty then some { l with precision := some (decimalValue digits) }
      else none
    | _ => none

/-- The flags of conversions of floats. -/
def floatFlags : List UInt8 := [0x2D, 0x2B, 0x20, 0x23, 0x30]

/-- The flags of conversions of unsigned integers to other bases. -/
def baseFlags : List UInt8 := [0x2D, 0x23, 0x30]

/-- The flags of conversions of integers. -/
def integerFlags : List UInt8 := [0x2D, 0x2B, 0x20, 0x30]

/-- The flags of conversions of unsigned integers. -/
def unsignedFlags : List UInt8 := [0x2D, 0x30]

/-- The flags of conversions of bytes. -/
def bytesFlags : List UInt8 := [0x2D]

/-- So many copies of a byte. -/
def copies (n : Nat) (b : UInt8) : Bytes :=
  (List.replicate n b).toByteArray

/-- A number with its sign, up to the width: zeros go after the sign, blanks before it. -/
def number (l : Layout) (zeros : Bool) (sign body : String) : Bytes :=
  let n := l.width - (sign.utf8ByteSize + body.utf8ByteSize)
  if l.left then bytesOf (sign ++ body) ++ copies n 0x20
  else if zeros then bytesOf sign ++ copies n 0x30 ++ bytesOf body
  else copies n 0x20 ++ bytesOf (sign ++ body)

/-- The sign of a number. -/
def signOf (l : Layout) (negative : Bool) : String :=
  if negative then "-" else if l.plus then "+" else if l.blank then " " else ""

/-- Digits, filled with zeros up to the precision; no digits for zero with precision zero. -/
def digits (l : Layout) (isZero : Bool) (text : String) : String :=
  match l.precision with
  | none => text
  | some p =>
    if p == 0 && isZero then ""
    else String.ofList (List.replicate (p - text.length) '0') ++ text

/-- A signed integer. -/
def integer (l : Layout) (i : Int64) : Bytes :=
  l.number (l.zero && l.precision.isNone) (l.signOf (i < 0))
    (l.digits (i == 0) (toString i.toInt.natAbs))

/-- An unsigned integer in base 8, 10 or 16. -/
def unsigned (l : Layout) (base : Nat) (upper : Bool) (i : Int64) : Bytes :=
  let n := i.toUInt64.toNat
  let text := String.ofList (Nat.toDigits base n)
  let text := l.digits (n == 0) (if upper then text.toUpper else text)
  let mark :=
    if !l.alternate then ""
    else if base == 16 && n != 0 then (if upper then "0X" else "0x")
    else if base == 8 && !text.startsWith "0" then "0"
    else ""
  l.number (l.zero && l.precision.isNone) mark text

/-- A float as the conversion of a letter `a`, `e`, `f` or `g` writes it. -/
def float (l : Layout) (letter : Char) (upper : Bool) (f : Float) : Bytes :=
  let b := Binary.ofFloat f
  let text :=
    if f.isNaN then "nan"
    else if f.isInf then "inf"
    else
      match letter with
      | 'a' => Number.hexText l.alternate l.precision b.m b.e
      | 'e' => Number.scientificText l.alternate (l.precision.getD 6) b.m b.e
      | 'f' => Number.fixedText l.alternate (l.precision.getD 6) b.m b.e
      | _ => Number.generalText l.alternate (l.precision.getD 6) b.m b.e
  let text := if upper then text.toUpper else text
  let sign := l.signOf b.negative
  let finite := !f.isNaN && !f.isInf
  if letter == 'a' && finite then
    l.number l.zero (sign ++ String.ofList (text.toList.take 2)) (String.ofList (text.toList.drop 2))
  else l.number (l.zero && finite) sign text

/-- Bytes, cut to the precision. -/
def bytes (l : Layout) (b : Bytes) : Bytes :=
  let b :=
    match l.precision with
    | some p => b.extract 0 p
    | none => b
  let blanks := copies (l.width - b.size) 0x20
  if l.left then b ++ blanks else blanks ++ b

end Layout

/-- The bytes of a Lua string literal: quotes, backslashes and line ends are escaped, and other
control characters and zeros by number; three digits if a digit follows. -/
def quotedTail : List UInt8 → List UInt8
  | [] => [0x22]
  | b :: rest =>
    if b == 0x22 || b == 0x5C || b == 0x0A then 0x5C :: b :: quotedTail rest
    else if b < 0x20 || b == 0x7F then
      let n := toString b.toNat
      let n := if rest.head?.any isDigit then Number.padded 3 b.toNat else n
      0x5C :: (n.toUTF8.data.toList ++ quotedTail rest)
    else b :: quotedTail rest

/-- A string as a Lua string literal. -/
def quotedBytes (b : Bytes) : Bytes :=
  (0x22 :: quotedTail b.data.toList).toByteArray

/-- A float as Lua source that has exactly its value. -/
def quotedFloat (f : Float) : Bytes :=
  if f.isNaN then bytesOf "(0/0)"
  else if f.isInf then bytesOf (if f < 0.0 then "-1e9999" else "1e9999")
  else Layout.float {} 'a' false f

/-- An integer as Lua source that has exactly its value. -/
def quotedInt (i : Int64) : Bytes :=
  bytesOf (if i == Int64.minValue then "0x8000000000000000" else integerText i)

end Stencil.Lua
