/-!
# Bytes as text

Reading bytes as UTF-8. Where bytes are no character, the longest run of them that could have
started one counts as a single fault.

* `Utf8.scan`: the characters of bytes, with the faults among them;
* `Utf8.readable`: the text of bytes, with a replacement character for each fault;
* `Utf8.fault?`: where bytes are not a text, and why.
-/

namespace Stencil.Utf8

/-- A piece of bytes read as text. -/
inductive Piece where
  | char (c : Char)
  /-- Bytes that are no character, and whether more bytes could have made them one. -/
  | fault (length : Nat) (cut : Bool)
  deriving Repr, BEq, DecidableEq, Inhabited

/-- The range of a second byte after a first one, and how many continuations a character that
starts so has. -/
def shape (b : UInt8) : Option (UInt8 × UInt8 × Nat) :=
  if 0xC2 ≤ b && b ≤ 0xDF then some (0x80, 0xBF, 1)
  else if b == 0xE0 then some (0xA0, 0xBF, 2)
  else if b == 0xED then some (0x80, 0x9F, 2)
  else if 0xE1 ≤ b && b ≤ 0xEF then some (0x80, 0xBF, 2)
  else if b == 0xF0 then some (0x90, 0xBF, 3)
  else if 0xF1 ≤ b && b ≤ 0xF3 then some (0x80, 0xBF, 3)
  else if b == 0xF4 then some (0x80, 0x8F, 3)
  else none

/-- Reads `count` continuations in a range, the first one in the range given: the value with them,
or how many there are and whether the bytes end after them. -/
def continuations : Nat → UInt8 → UInt8 → Nat → Nat → List UInt8 → Except (Nat × Bool) Nat
  | 0, _, _, value, _, _ => .ok value
  | _ + 1, _, _, _, seen, [] => .error (seen, true)
  | count + 1, low, high, value, seen, b :: rest =>
    if low ≤ b && b ≤ high then
      continuations count 0x80 0xBF (value * 64 + b.toNat % 64) (seen + 1) rest
    else .error (seen, false)

/-- The first piece of bytes, and how many bytes it has. -/
def first (b : UInt8) (rest : List UInt8) : Piece × Nat :=
  if b < 0x80 then (.char (Char.ofNat b.toNat), 1)
  else
    match shape b with
    | none => (.fault 1 false, 1)
    | some (low, high, count) =>
      let bits := b.toNat % Nat.pow 2 (6 - count)
      match continuations count low high bits 0 rest with
      | .ok value => (.char (Char.ofNat value), count + 1)
      | .error (seen, cut) => (.fault (seen + 1) cut, seen + 1)

/-- The pieces of bytes, at most `fuel` of them. -/
def scanFrom : Nat → List UInt8 → List Piece
  | 0, _ => []
  | _, [] => []
  | fuel + 1, b :: rest =>
    let (piece, n) := first b rest
    piece :: scanFrom fuel (rest.drop (n - 1))

/-- The pieces of bytes. -/
def scan (bytes : ByteArray) : List Piece :=
  scanFrom bytes.size bytes.data.toList

/-- The text of bytes, with a replacement character for each fault. -/
def readable (bytes : ByteArray) : String :=
  match String.fromUTF8? bytes with
  | some text => text
  | none =>
    String.ofList ((scan bytes).map fun
      | .char c => c
      | .fault .. => Char.ofNat 0xFFFD)

/-- The first fault among pieces, with the number of bytes before it. -/
def faultIn : Nat → List Piece → Option (Nat × Nat × Bool)
  | _, [] => none
  | i, .char c :: rest => faultIn (i + c.utf8Size) rest
  | i, .fault length cut :: _ => some (i, length, cut)

/-- Why bytes are not a text, if they are none. -/
def fault? (bytes : ByteArray) : Option String :=
  (faultIn 0 (scan bytes)).map fun (i, length, cut) =>
    if cut then "incomplete utf-8 byte sequence from index " ++ toString i
    else "invalid utf-8 sequence of " ++ toString length ++ " bytes from index " ++ toString i

end Stencil.Utf8
