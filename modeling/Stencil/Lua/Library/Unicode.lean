import Stencil.Lua.Library.Argument
import Stencil.Lua.Pattern
import Stencil.Lua.StringLiteral

/-!
# The library `utf8`

Code points in strings. A code point may be as large as 31 bits hold, unless it is read strictly:
then it has to be a character.
-/

namespace Stencil.Lua.Unicode

open Argument

/-- The message about bytes that are no code point. -/
def invalid : String := "invalid UTF-8 code"

/-- Whether a byte goes on a code point. -/
def isContinuation (b : UInt8) : Bool :=
  b &&& 0xC0 == 0x80

/-- Whether the byte at a position goes on a code point. -/
def continuesAt (s : Bytes) (i : Nat) : Bool :=
  (byteAt s i).any isContinuation

/-- The bits of `count` continuations from a position on, after those read before. -/
def continuations (s : Bytes) : Nat → Nat → Nat → Option Nat
  | 0, _, value => some value
  | count + 1, i, value =>
    match byteAt s i with
    | some b =>
      if isContinuation b then continuations s count (i + 1) (value * 64 + b.toNat % 64) else none
    | none => none

/-- The least code point of each number of continuations. -/
def least : Nat → Nat
  | 0 => 0
  | 1 => 0x80
  | 2 => 0x800
  | 3 => 0x10000
  | 4 => 0x200000
  | _ => 0x4000000

/-- The code point at a position, and the position after it. -/
def decodeAt (strict : Bool) (s : Bytes) (i : Nat) : Option (Nat × Nat) :=
  let found : Option (Nat × Nat) :=
    match byteAt s i with
    | none => none
    | some b =>
      let n := b.toNat
      if n < 0x80 then some (n, i + 1)
      else if n < 0xC0 || 0xFE ≤ n then none
      else
        let count := if n < 0xE0 then 1 else if n < 0xF0 then 2 else if n < 0xF8 then 3
          else if n < 0xFC then 4 else 5
        match continuations s count (i + 1) (n % Nat.pow 2 (6 - count)) with
        | some value => if value < least count then none else some (value, i + 1 + count)
        | none => none
  found.filter fun (value, _) =>
    !strict || (value ≤ 0x10FFFF && !(0xD800 ≤ value && value ≤ 0xDFFF))

/-- A position that may be negative, counted from the end; 0 if it lies before the start. -/
def position (i : Int64) (length : Nat) : Int :=
  if 0 ≤ i then i.toInt
  else if i.toInt < -(length : Int) then 0
  else length + i.toInt + 1

/-- The bytes of the code points of arguments, from an argument on. -/
def encodeFrom (vs : List Value) : Nat → Nat → Run Bytes
  | 0, _ => pure ByteArray.empty
  | count + 1, n => do
    let i ← integer n vs
    require (0 ≤ i && i ≤ 0x7FFFFFFF) n "value out of range"
    let rest ← encodeFrom vs count (n + 1)
    return (utf8Bytes i.toInt.toNat).toByteArray ++ rest

/-- The string of code points. -/
def char (vs : List Value) : Run (List Value) := do
  return [.string (← encodeFrom vs vs.length 1)]

/-- The code points that start before a position, from a position on. -/
def codesBetween (strict : Bool) (s : Bytes) (stop : Nat) : Nat → Nat → Option (List Nat)
  | 0, _ => some []
  | fuel + 1, i =>
    if i < stop then
      match decodeAt strict s i with
      | some (value, next) => (codesBetween strict s stop fuel next).map (value :: ·)
      | none => none
    else some []

/-- The code points of a part of a string. -/
def codepoint (vs : List Value) : Run (List Value) := do
  let s ← string 1 vs
  let first := position (← integerOr 2 vs 1) s.size
  let last := position (← integerOr 3 vs (Int64.ofInt first)) s.size
  let lax := (value 4 vs).truth
  require (1 ≤ first) 2 "out of bounds"
  require (last ≤ s.size) 3 "out of bounds"
  if last < first then return []
  else
    match codesBetween (!lax) s last.toNat (s.size + 1) (first.toNat - 1) with
    | some codes => return codes.map fun c => .int (Int64.ofNat c)
    | none => Run.complain (bytesOf invalid)

/-- How many code points start up to a position, from a position on; or where the first bytes
stand that are none. -/
def countCodes (strict : Bool) (s : Bytes) (last : Int) : Nat → Nat → Nat → Except Nat Nat
  | 0, _, n => .ok n
  | fuel + 1, i, n =>
    if i ≤ last then
      match decodeAt strict s i with
      | some (_, next) => countCodes strict s last fuel next (n + 1)
      | none => .error (i + 1)
    else .ok n

/-- How many code points a part of a string has. -/
def len (vs : List Value) : Run (List Value) := do
  let s ← string 1 vs
  let first := position (← integerOr 2 vs 1) s.size
  let last := position (← integerOr 3 vs (-1)) s.size
  let lax := (value 4 vs).truth
  require (1 ≤ first && first - 1 ≤ s.size) 2 "initial position out of bounds"
  require (last - 1 < s.size) 3 "final position out of bounds"
  match countCodes (!lax) s (last - 1) (s.size + 1) (first.toNat - 1) 0 with
  | .ok n => return [.int (Int64.ofNat n)]
  | .error i => return [.nil, .int (Int64.ofNat i)]

/-- The start of the code point before a position. -/
def stepBack (s : Bytes) : Nat → Nat
  | 0 => 0
  | i + 1 => if continuesAt s i then stepBack s i else i

/-- The start of the code point after the one at a position. -/
def stepOn (s : Bytes) : Nat → Nat → Nat
  | 0, i => i
  | fuel + 1, i => if continuesAt s (i + 1) then stepOn s fuel (i + 1) else i + 1

/-- Moves back over `n` code points; tells how many are left when the start is reached. -/
def moveBack (s : Bytes) : Nat → Nat → Nat × Nat
  | 0, i => (0, i)
  | n + 1, i => if i = 0 then (n + 1, i) else moveBack s n (stepBack s i)

/-- Moves on over `n` code points; tells how many are left when the end is reached. -/
def moveOn (s : Bytes) : Nat → Nat → Nat × Nat
  | 0, i => (0, i)
  | n + 1, i => if i < s.size then moveOn s n (stepOn s s.size i) else (n + 1, i)

/-- Where the code point with a number starts, counted from a position. -/
def offset (vs : List Value) : Run (List Value) := do
  let s ← string 1 vs
  let n ← integer 2 vs
  let start := if 0 < n then (1 : Int64) else Int64.ofNat (s.size + 1)
  let i := position (← integerOr 3 vs start) s.size
  require (1 ≤ i && i - 1 ≤ s.size) 3 "position out of bounds"
  let i := i.toNat - 1
  let found (left i : Nat) : List Value :=
    if left = 0 then [.int (Int64.ofNat (i + 1))] else [.nil]
  if n == 0 then return found 0 (if continuesAt s i then stepBack s i else i)
  else if continuesAt s i then
    Run.complain (bytesOf "initial position is a continuation byte")
  else
    let (left, i) :=
      if n < 0 then moveBack s n.toInt.natAbs i else moveOn s (n.toInt.toNat - 1) i
    return found left i

/-- An iterator over the code points of a string. -/
def codes (vs : List Value) : Run (List Value) := do
  let s ← string 1 vs
  require (!continuesAt s 0) 1 invalid
  let lax := (value 2 vs).truth
  return [.builtin (if lax then .utf8CodesStepLax else .utf8CodesStep), .string s, .int 0]

/-- The code point after the one at a position. -/
def codesStep (strict : Bool) (vs : List Value) : Run (List Value) := do
  let s ← string 1 vs
  let n : Int64 := (((value 2 vs).toNumber.bind Numeral.toInt).getD 0)
  if n < 0 || s.size ≤ n.toInt.toNat then return []
  else
    let n := n.toInt.toNat
    let i := if continuesAt s n then stepOn s s.size n else n
    if s.size ≤ i then return []
    else
      match decodeAt strict s i with
      | some (value, next) =>
        if continuesAt s next then Run.complain (bytesOf invalid)
        else return [.int (Int64.ofNat (i + 1)), .int (Int64.ofNat value)]
      | none => Run.complain (bytesOf invalid)

/-- The pattern of one code point. -/
def charPattern : Bytes :=
  [0x5B, 0x00, 0x2D, 0x7F, 0xC2, 0x2D, 0xFD, 0x5D, 0x5B, 0x80, 0x2D, 0xBF, 0x5D, 0x2A].toByteArray

end Stencil.Lua.Unicode
