/-!
# Floating-point numbers as integers times powers of two

A finite double is `m · 2^e`. Exact arithmetic on it goes through this form.

* `Binary.ofFloat`: the form of a double;
* `Binary.toFloat`: the double nearest to `m · 2^e`, ties to the even one;
* `Binary.rem`: the remainder of a division that truncates.
-/

namespace Stencil

/-- A number `± m · 2^e`. -/
structure Binary where
  negative : Bool
  m : Nat
  e : Int
  deriving Repr, BEq, DecidableEq, Inhabited

namespace Binary

/-- The form of a finite double. -/
def ofFloat (x : Float) : Binary :=
  let bits : Nat := x.toBits.toNat
  let negative := bits / Nat.pow 2 63 == 1
  let exponent : Nat := bits / Nat.pow 2 52 % Nat.pow 2 11
  let fraction : Nat := bits % Nat.pow 2 52
  if exponent == 0 then ⟨negative, fraction, -1074⟩
  else ⟨negative, fraction + Nat.pow 2 52, (exponent : Int) - 1075⟩

/-- A quotient of naturals rounded to the nearest natural, ties to the even one. -/
def roundDiv (num den : Nat) : Nat :=
  let q := num / den
  let twice := 2 * (num % den)
  if twice > den || (twice == den && q % 2 == 1) then q + 1 else q

/-- `m · 2^e` rounded to a natural times `2^k`, as that natural. -/
def roundAt (m : Nat) (e k : Int) : Nat :=
  if k ≤ e then m * Nat.pow 2 (e - k).toNat else roundDiv m (Nat.pow 2 (k - e).toNat)

/-- The double nearest to a number, ties to the even one; too large a number is infinite. -/
def toFloat (x : Binary) : Float :=
  let magnitude :=
    if x.m == 0 then (0 : Nat)
    else
      let top : Int := x.e + x.m.log2
      let k : Int := max (top - 52) (-1074)
      let m := roundAt x.m x.e k
      let (m, k) := if m == Nat.pow 2 53 then (Nat.pow 2 52, k + 1) else (m, k)
      if k > 971 then 0x7FF * Nat.pow 2 52
      else if m < Nat.pow 2 52 then m
      else (k + 1075).toNat * Nat.pow 2 52 + (m - Nat.pow 2 52)
  Float.ofBits (UInt64.ofNat (magnitude + if x.negative then Nat.pow 2 63 else 0))

/-- The remainder of dividing finite doubles with a quotient cut off toward zero; it has the sign
of the first. -/
def rem (a b : Float) : Float :=
  let x := ofFloat a
  let y := ofFloat b
  let e := min x.e y.e
  let m := (x.m * Nat.pow 2 (x.e - e).toNat) % (y.m * Nat.pow 2 (y.e - e).toNat)
  toFloat ⟨x.negative, m, e⟩

/-- The double nearest to a natural times a power of ten, ties to the even one. -/
def ofDecimal (m : Nat) (exponent : Int) : Float :=
  if m == 0 then 0.0
  else
    let digits : Int := (m.log2 + 1) * 30103 / 100000
    if exponent + digits > 320 then 1.0 / 0.0
    else if exponent + digits < -360 then 0.0
    else if exponent ≥ 0 then toFloat ⟨false, m * Nat.pow 10 exponent.toNat, 0⟩
    else
      let den := Nat.pow 10 (-exponent).toNat
      let shift := den.log2 + 70 - min m.log2 (den.log2 + 70)
      let num := m * Nat.pow 2 shift
      let q := num / den
      let sticky := if num % den == 0 then 0 else 1
      toFloat ⟨false, 2 * q + sticky, -(shift : Int) - 1⟩

end Binary

end Stencil
