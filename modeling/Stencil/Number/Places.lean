import Stencil.Number.Binary

/-!
# Writing numbers with a set number of digits

Exact decimal and hexadecimal texts of finite doubles: with a number of places, with an exponent,
or with a number of significant digits. Rounding is to the nearest, ties to the even digit.

All functions here are about magnitudes; the sign is put in front by the caller.
-/

namespace Stencil.Number

/-- The decimal digits of a natural, at least `width` of them. -/
def padded (width n : Nat) : String :=
  let digits := toString n
  String.ofList (List.replicate (width - digits.length) '0') ++ digits

/-- `m · 2^e · 10^k` rounded to a natural. -/
def scaled (m : Nat) (e k : Int) : Nat :=
  let num := m * Nat.pow 2 e.toNat * Nat.pow 10 k.toNat
  let den := Nat.pow 2 (-e).toNat * Nat.pow 10 (-k).toNat
  Binary.roundDiv num den

/-- A natural with a point before its last `places` digits. The point is left out if there are no
places, unless `point` is set. -/
def withPoint (point : Bool) (places n : Nat) : String :=
  let digits := padded (places + 1) n
  let whole := String.ofList (digits.toList.take (digits.length - places))
  let fraction := String.ofList (digits.toList.drop (digits.length - places))
  if places == 0 then (if point then whole ++ "." else whole) else whole ++ "." ++ fraction

/-- The text of `m · 2^e` with a number of places. -/
def fixedText (point : Bool) (places m : Nat) (e : Int) : String :=
  withPoint point places (scaled m e places)

/-- The exponent of the leading decimal digit of `m · 2^e`, for `m ≠ 0`. -/
def leadingExponent (m : Nat) (e : Int) : Int :=
  let guess : Int := ((m.log2 : Int) + e) * 30103 / 100000
  let reaches (k : Int) : Bool :=
    Nat.pow 10 k.toNat * Nat.pow 2 (-e).toNat ≤ m * Nat.pow 2 e.toNat * Nat.pow 10 (-k).toNat
  if reaches (guess + 2) then guess + 2
  else if reaches (guess + 1) then guess + 1
  else if reaches guess then guess
  else if reaches (guess - 1) then guess - 1
  else guess - 2

/-- The digits of `m · 2^e`, one before and `places` after the point, as a natural, and the
exponent they stand under. -/
def scientific (places m : Nat) (e : Int) : Nat × Int :=
  if m == 0 then (0, 0)
  else
    let x := leadingExponent m e
    let n := scaled m e (places - x)
    if n ≥ Nat.pow 10 (places + 1) then (scaled m e (places - (x + 1)), x + 1) else (n, x)

/-- The text of an exponent: a sign and at least two digits. -/
def exponentText (x : Int) : String :=
  (if x < 0 then "-" else "+") ++ padded 2 x.natAbs

/-- The text of `m · 2^e` with one digit before the point, `places` after it, and an exponent. -/
def scientificText (point : Bool) (places m : Nat) (e : Int) : String :=
  let (n, x) := scientific places m e
  withPoint point places n ++ "e" ++ exponentText x

/-- A text of digits with a point, without the zeros that end it, and without a point at its
end. -/
def dropZeros (text : String) : String :=
  if text.toList.contains '.' then
    let back := text.toList.reverse.dropWhile (· = '0')
    String.ofList (if back.head? = some '.' then back.drop 1 else back).reverse
  else text

/-- The text of `m · 2^e` with `digits` significant digits, positional if the exponent is from -4
to below `digits`. Zeros at the end are left out unless `keep` is set. -/
def generalText (keep : Bool) (digits m : Nat) (e : Int) : String :=
  let digits := max digits 1
  let (n, x) := scientific (digits - 1) m e
  if x < -4 || x ≥ digits then
    let mantissa := withPoint keep (digits - 1) n
    (if keep then mantissa else dropZeros mantissa) ++ "e" ++ exponentText x
  else
    let text := fixedText keep ((digits : Int) - 1 - x).toNat m e
    if keep then text else dropZeros text

/-- The hexadecimal digits of a natural, at least `width` of them. -/
def hexPadded (width n : Nat) : String :=
  let digits := Nat.toDigits 16 n
  String.ofList (List.replicate (width - digits.length) '0' ++ digits)

/-- The hexadecimal text of `m · 2^e`: one digit before the point, then `places` digits, or all
that there are, and a binary exponent. -/
def hexText (point : Bool) (places : Option Nat) (m : Nat) (e : Int) : String :=
  if m == 0 then
    let fraction := String.ofList (List.replicate (places.getD 0) '0')
    "0x0" ++ (if point || !fraction.isEmpty then "." else "") ++ fraction ++ "p+0"
  else
    let top := m.log2
    let full := m * Nat.pow 2 (52 - min top 52)
    let exponent : Int := e + top
    let (n, width) :=
      match places with
      | some p => if p < 13 then (Binary.roundDiv full (Nat.pow 2 (4 * (13 - p))), p)
                  else (full * Nat.pow 2 (4 * (p - 13)), p)
      | none => (full, 13)
    let text := hexPadded (width + 1) n
    let whole := String.ofList (text.toList.take (text.length - width))
    let fraction := String.ofList (text.toList.drop (text.length - width))
    let fraction :=
      if places.isNone then String.ofList (fraction.toList.reverse.dropWhile (· = '0')).reverse
      else fraction
    "0x" ++ whole ++ (if point || !fraction.isEmpty then "." else "") ++ fraction ++ "p" ++
      (if exponent < 0 then "-" else "+") ++ toString exponent.natAbs

end Stencil.Number
