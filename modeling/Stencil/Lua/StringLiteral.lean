import Stencil.Lua.Token

/-!
# String literals

Reading the rest of a string literal byte by byte, after its opening quote or bracket.

* `readQuoted`: a literal between quotes, with its escapes;
* `readBracketed`: a literal or a comment between long brackets.
-/

namespace Stencil.Lua

/-- The bytes of a code point in UTF-8, extended to 31 bits. -/
def utf8Bytes (n : Nat) : List UInt8 :=
  let tail (k : Nat) : UInt8 := UInt8.ofNat (0x80 + n / Nat.pow 2 (6 * k) % 64)
  if n < 0x80 then [UInt8.ofNat n]
  else if n < 0x800 then [UInt8.ofNat (0xC0 + n / Nat.pow 2 6), tail 0]
  else if n < 0x10000 then [UInt8.ofNat (0xE0 + n / Nat.pow 2 12), tail 1, tail 0]
  else if n < 0x200000 then [UInt8.ofNat (0xF0 + n / Nat.pow 2 18), tail 2, tail 1, tail 0]
  else if n < 0x4000000 then
    [UInt8.ofNat (0xF8 + n / Nat.pow 2 24), tail 3, tail 2, tail 1, tail 0]
  else [UInt8.ofNat (0xFC + n / Nat.pow 2 30), tail 4, tail 3, tail 2, tail 1, tail 0]

/-- Whether a byte ends a line. -/
def isNewline (b : UInt8) : Bool :=
  b == 0x0A || b == 0x0D

/-- What a byte means inside a literal, by what stands before it. -/
inductive LiteralMode where
  /-- An ordinary byte. -/
  | plain
  /-- After a backslash. -/
  | escape
  /-- After `\x` and the value of the digits read, if one is. -/
  | hex (first : Option Nat)
  /-- Among the digits of a decimal escape: how many, and their value. -/
  | decimal (count value : Nat)
  /-- After `\u`. -/
  | brace
  /-- After the brace of a `\u` escape. -/
  | firstDigit
  /-- Among the digits of a `\u` escape. -/
  | codePoint (value : Nat)
  /-- Among the blanks after `\z`. -/
  | zap
  /-- After a line end whose second byte, if it is `other`, belongs to it. -/
  | pair (other : UInt8) (zap : Bool)
  deriving Repr, BEq, DecidableEq, Inhabited

/-- A literal that is being read: the line, the bytes of its value and those of the escape, both
last first. -/
structure LiteralScan where
  mode : LiteralMode
  line : Nat
  value : List UInt8
  raw : List UInt8
  deriving Repr, BEq, DecidableEq, Inhabited

/-- The end of reading a literal. -/
inductive LiteralResult where
  /-- The value, the line it ends on, and the bytes after it. -/
  | ok (value : List UInt8) (line : Nat) (rest : List UInt8)
  /-- Why it cannot be read, the line, and the bytes that the message shows; none for the end of
  the source. -/
  | bad (reason : String) (line : Nat) (near : Option (List UInt8))
  deriving Repr, BEq, DecidableEq, Inhabited

/-- What one byte of a literal leads to. -/
inductive LiteralStep where
  | next (s : LiteralScan)
  | close (value : List UInt8) (line : Nat)
  | bad (reason : String) (line : Nat) (near : List UInt8)
  deriving Repr, BEq, DecidableEq, Inhabited

namespace LiteralScan

/-- Goes on with a byte added to the value. -/
def put (s : LiteralScan) (b : UInt8) : LiteralStep :=
  .next { s with mode := .plain, value := b :: s.value, raw := [] }

/-- The bytes that a message about an escape shows. -/
def near (delimiter : UInt8) (s : LiteralScan) (more : List UInt8) : List UInt8 :=
  delimiter :: (s.value.reverse ++ s.raw.reverse ++ more)

/-- An ordinary byte. -/
def plainStep (delimiter : UInt8) (s : LiteralScan) (b : UInt8) : LiteralStep :=
  if b == delimiter then .close s.value.reverse s.line
  else if b == 0x5C then .next { s with mode := .escape, raw := [b] }
  else if isNewline b then .bad "unfinished string" s.line (near delimiter s [])
  else s.put b

/-- The byte of a one-letter escape. -/
def simpleEscape (b : UInt8) : Option UInt8 :=
  match b with
  | 0x61 => some 0x07
  | 0x62 => some 0x08
  | 0x66 => some 0x0C
  | 0x6E => some 0x0A
  | 0x72 => some 0x0D
  | 0x74 => some 0x09
  | 0x76 => some 0x0B
  | 0x5C => some 0x5C
  | 0x22 => some 0x22
  | 0x27 => some 0x27
  | _ => none

/-- A byte after a backslash. -/
def escapeStep (delimiter : UInt8) (s : LiteralScan) (b : UInt8) : LiteralStep :=
  match simpleEscape b with
  | some c => s.put c
  | none =>
    if b == 0x78 then .next { s with mode := .hex none, raw := b :: s.raw }
    else if b == 0x75 then .next { s with mode := .brace, raw := b :: s.raw }
    else if b == 0x7A then .next { s with mode := .zap, raw := [] }
    else if isNewline b then
      .next { s with
        mode := .pair (if b == 0x0A then 0x0D else 0x0A) false, line := s.line + 1,
        value := 0x0A :: s.value, raw := [] }
    else if isDigit b then
      .next { s with mode := .decimal 1 (b.toNat - 0x30), raw := b :: s.raw }
    else .bad "invalid escape sequence" s.line (near delimiter s [b])

/-- A blank after `\z`. -/
def zapStep (delimiter : UInt8) (s : LiteralScan) (b : UInt8) : LiteralStep :=
  if isNewline b then
    .next { s with mode := .pair (if b == 0x0A then 0x0D else 0x0A) true, line := s.line + 1 }
  else if isSpace b then .next { s with mode := .zap }
  else plainStep delimiter { s with mode := .plain } b

/-- One byte of a literal. -/
def step (delimiter : UInt8) (s : LiteralScan) (b : UInt8) : LiteralStep :=
  match s.mode with
  | .plain => plainStep delimiter s b
  | .escape => escapeStep delimiter s b
  | .hex first =>
    match hexValue b, first with
    | none, _ => .bad "hexadecimal digit expected" s.line (near delimiter s [b])
    | some v, none => .next { s with mode := .hex (some v), raw := b :: s.raw }
    | some v, some u => s.put (UInt8.ofNat (u * 16 + v))
  | .decimal count value =>
    if count < 3 && isDigit b then
      .next { s with
        mode := .decimal (count + 1) (value * 10 + (b.toNat - 0x30)), raw := b :: s.raw }
    else if value > 255 then .bad "decimal escape too large" s.line (near delimiter s [b])
    else
      plainStep delimiter
        { s with mode := .plain, value := UInt8.ofNat value :: s.value, raw := [] } b
  | .brace =>
    if b == 0x7B then .next { s with mode := .firstDigit, raw := b :: s.raw }
    else .bad "missing '\x7b'" s.line (near delimiter s [b])
  | .firstDigit =>
    match hexValue b with
    | some v => .next { s with mode := .codePoint v, raw := b :: s.raw }
    | none => .bad "hexadecimal digit expected" s.line (near delimiter s [b])
  | .codePoint value =>
    match hexValue b with
    | some v =>
      if value > 0x7FFFFFF then .bad "UTF-8 value too large" s.line (near delimiter s [b])
      else .next { s with mode := .codePoint (value * 16 + v), raw := b :: s.raw }
    | none =>
      if b == 0x7D then
        .next { s with mode := .plain, value := (utf8Bytes value).reverse ++ s.value, raw := [] }
      else .bad "missing '\x7d'" s.line (near delimiter s [b])
  | .zap => zapStep delimiter s b
  | .pair other zap =>
    if b == other then .next { s with mode := if zap then .zap else .plain }
    else if zap then zapStep delimiter s b
    else plainStep delimiter { s with mode := .plain } b

/-- The end of the source inside a literal. -/
def atEnd (delimiter : UInt8) (s : LiteralScan) : LiteralResult :=
  match s.mode with
  | .hex _ | .firstDigit => .bad "hexadecimal digit expected" s.line (some (near delimiter s []))
  | .brace => .bad "missing '\x7b'" s.line (some (near delimiter s []))
  | .codePoint _ => .bad "missing '\x7d'" s.line (some (near delimiter s []))
  | .decimal _ value =>
    if value > 255 then .bad "decimal escape too large" s.line (some (near delimiter s []))
    else .bad "unfinished string" s.line none
  | _ => .bad "unfinished string" s.line none

/-- Reads a literal to its closing quote. -/
def read (delimiter : UInt8) (s : LiteralScan) : List UInt8 → LiteralResult
  | [] => s.atEnd delimiter
  | b :: rest =>
    match s.step delimiter b with
    | .next s => read delimiter s rest
    | .close value line => .ok value line rest
    | .bad reason line near => .bad reason line (some near)

end LiteralScan

/-- Reads the literal after an opening quote. -/
def readQuoted (delimiter : UInt8) (line : Nat) (cs : List UInt8) : LiteralResult :=
  LiteralScan.read delimiter ⟨.plain, line, [], []⟩ cs

/-- What a byte means between long brackets, by what stands before it. -/
inductive BracketMode where
  | plain
  /-- After a closing bracket and a number of equals signs. -/
  | closing (signs : Nat)
  /-- After a line end whose second byte, if it is `other`, belongs to it. -/
  | pair (other : UInt8)
  deriving Repr, BEq, DecidableEq, Inhabited

/-- The bytes of the closing bracket that was begun, last first. -/
def begunBracket (signs : Nat) : List UInt8 :=
  List.replicate signs 0x3D ++ [0x5D]

/-- Reads what stands between long brackets of a level, from a mode; `value` is what was read,
last byte first. -/
def readBrackets (level : Nat) (mode : BracketMode) (line : Nat) (value : List UInt8) :
    List UInt8 → Option (List UInt8 × Nat × List UInt8)
  | [] => none
  | b :: rest =>
    let ordinary (value : List UInt8) :=
      if b == 0x5D then readBrackets level (.closing 0) line value rest
      else if isNewline b then
        readBrackets level (.pair (if b == 0x0A then 0x0D else 0x0A)) (line + 1)
          (0x0A :: value) rest
      else readBrackets level .plain line (b :: value) rest
    match mode with
    | .plain => ordinary value
    | .closing signs =>
      if b == 0x5D && signs == level then some (value.reverse, line, rest)
      else if b == 0x3D then readBrackets level (.closing (signs + 1)) line value rest
      else ordinary (begunBracket signs ++ value)
    | .pair other => if b == other then readBrackets level .plain line value rest else ordinary value

/-- Reads what stands after an opening long bracket of a level: the value, the line it ends on
and the bytes after it. A line end right after the bracket does not count. -/
def readBracketed (level line : Nat) (cs : List UInt8) : Option (List UInt8 × Nat × List UInt8) :=
  match cs with
  | b :: rest =>
    if isNewline b then
      readBrackets level (.pair (if b == 0x0A then 0x0D else 0x0A)) (line + 1) [] rest
    else readBrackets level .plain line [] cs
  | [] => none

end Stencil.Lua
