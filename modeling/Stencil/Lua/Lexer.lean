import Stencil.Lua.StringLiteral

/-!
# Reading tokens

The tokens of Lua source, in order. The last one is the end of the source, or the reason why it
cannot be read further; a parser meets that reason when it gets there, and not before.
-/

namespace Stencil.Lua

/-- What the first bytes of a source are. -/
inductive Scan where
  /-- A token, and what follows it. -/
  | token (l : Lexeme) (rest : List UInt8)
  /-- Blanks or a comment; the line after them, and what follows. -/
  | blank (line : Nat) (rest : List UInt8)

/-- Whether a byte may start a name. -/
def isNameStart (b : UInt8) : Bool :=
  isLetter b || b == 0x5F

/-- Whether a byte may stand in a name. -/
def isNameByte (b : UInt8) : Bool :=
  isNameStart b || isDigit b

/-- A token that is a mark. -/
def Scan.ofMark (m : Mark) (line : Nat) (rest : List UInt8) : Scan :=
  .token ⟨.mark m, line, bytesOf m.spelling⟩ rest

/-- A reason why the source cannot be read further, with the bytes near which it was found. -/
def Scan.bad (reason : String) (line : Nat) (near : Option (List UInt8)) : Scan :=
  let shown :=
    match near with
    | some bytes => quoted bytes.toByteArray
    | none => bytesOf "<eof>"
  .token ⟨.fault (bytesOf (reason ++ " near ") ++ shown), line, ByteArray.empty⟩ []

/-- The bytes of a numeral that is being read, last first, and what follows. `marks` are the
bytes that start an exponent; a sign may follow one. -/
def readNumeral (marks : List UInt8) (afterMark : Bool) (taken : List UInt8) :
    List UInt8 → List UInt8 × List UInt8
  | [] => (taken, [])
  | b :: rest =>
    if afterMark && (b == 0x2B || b == 0x2D) then readNumeral marks false (b :: taken) rest
    else if marks.contains b then readNumeral marks true (b :: taken) rest
    else if isHexDigit b || b == 0x2E then readNumeral marks false (b :: taken) rest
    else if isNameStart b then (b :: taken, rest)
    else (taken, b :: rest)

/-- Reads a number, of which the bytes `taken` were read, last first. -/
def scanNumber (line : Nat) (taken cs : List UInt8) : Scan :=
  let (text, rest) :=
    match cs with
    | 0x30 :: x :: rest =>
      if x == 0x78 || x == 0x58 then readNumeral [0x70, 0x50] false (x :: 0x30 :: taken) rest
      else readNumeral [0x65, 0x45] false taken cs
    | cs => readNumeral [0x65, 0x45] false taken cs
  let text := text.reverse
  match Numeral.read text with
  | some n => .token ⟨.number n, line, text.toByteArray⟩ rest
  | none => .bad "malformed number" line (some text)

/-- Reads a string between quotes. -/
def scanQuoted (delimiter : UInt8) (line : Nat) (cs : List UInt8) : Scan :=
  match readQuoted delimiter line cs with
  | .ok value line rest =>
    .token ⟨.string value.toByteArray, line, (delimiter :: (value ++ [delimiter])).toByteArray⟩ rest
  | .bad reason line near => .bad reason line near

/-- The level of the long bracket that opens after a first bracket, and what follows it. -/
def openingLevel (cs : List UInt8) : Option (Nat × List UInt8) :=
  let signs := cs.takeWhile (· == 0x3D)
  match cs.dropWhile (· == 0x3D) with
  | 0x5B :: rest => some (signs.length, rest)
  | _ => none

/-- The reason for a long bracket that never closes. -/
def unfinishedLong (what : String) (line last : Nat) : Scan :=
  .bad ("unfinished long " ++ what ++ " (starting at line " ++ toString line ++ ")") last none

/-- The number of line ends in a source; the two bytes of one count once. -/
def countLines : List UInt8 → Nat
  | 0x0D :: 0x0A :: rest => countLines rest + 1
  | 0x0A :: 0x0D :: rest => countLines rest + 1
  | b :: rest => countLines rest + if isNewline b then 1 else 0
  | [] => 0

/-- Reads a string between long brackets, or a bracket. -/
def scanBracket (line : Nat) (cs : List UInt8) : Scan :=
  match openingLevel cs with
  | some (level, rest) =>
    match readBracketed level line rest with
    | some (value, last, rest) =>
      let signs := List.replicate level 0x3D
      .token
        ⟨.string value.toByteArray, last,
          (0x5B :: (signs ++ 0x5B :: (value ++ 0x5D :: (signs ++ [0x5D])))).toByteArray⟩
        rest
    | none => unfinishedLong "string" line (line + countLines rest)
  | none =>
    match cs.takeWhile (· == 0x3D) with
    | [] => .ofMark .leftBracket line cs
    | signs => .bad "invalid long string delimiter" line (some (0x5B :: signs))

/-- Reads a comment, after its two dashes. -/
def scanComment (line : Nat) (cs : List UInt8) : Scan :=
  let short := Scan.blank line (cs.dropWhile fun b => !isNewline b)
  match cs with
  | 0x5B :: rest =>
    match openingLevel rest with
    | some (level, rest) =>
      match readBracketed level line rest with
      | some (_, last, rest) => .blank last rest
      | none => unfinishedLong "comment" line (line + countLines rest)
    | none => short
  | _ => short

/-- What the bytes of a non-empty source start with. -/
def scanFirst (line : Nat) (b : UInt8) (rest : List UInt8) : Scan :=
  match b, rest with
  | 0x0D, 0x0A :: rest => .blank (line + 1) rest
  | 0x0A, 0x0D :: rest => .blank (line + 1) rest
  | 0x0D, rest => .blank (line + 1) rest
  | 0x0A, rest => .blank (line + 1) rest
  | 0x2D, 0x2D :: rest => scanComment line rest
  | 0x2D, rest => .ofMark .minus line rest
  | 0x5B, rest => scanBracket line rest
  | 0x3D, 0x3D :: rest => .ofMark .equal line rest
  | 0x3D, rest => .ofMark .assign line rest
  | 0x3C, 0x3D :: rest => .ofMark .lessEqual line rest
  | 0x3C, 0x3C :: rest => .ofMark .shiftLeft line rest
  | 0x3C, rest => .ofMark .less line rest
  | 0x3E, 0x3D :: rest => .ofMark .greaterEqual line rest
  | 0x3E, 0x3E :: rest => .ofMark .shiftRight line rest
  | 0x3E, rest => .ofMark .greater line rest
  | 0x2F, 0x2F :: rest => .ofMark .slash2 line rest
  | 0x2F, rest => .ofMark .slash line rest
  | 0x7E, 0x3D :: rest => .ofMark .notEqual line rest
  | 0x7E, rest => .ofMark .tilde line rest
  | 0x3A, 0x3A :: rest => .ofMark .colon2 line rest
  | 0x3A, rest => .ofMark .colon line rest
  | 0x2E, 0x2E :: 0x2E :: rest => .ofMark .dot3 line rest
  | 0x2E, 0x2E :: rest => .ofMark .dot2 line rest
  | 0x2B, rest => .ofMark .plus line rest
  | 0x2A, rest => .ofMark .star line rest
  | 0x25, rest => .ofMark .percent line rest
  | 0x5E, rest => .ofMark .caret line rest
  | 0x23, rest => .ofMark .hash line rest
  | 0x26, rest => .ofMark .ampersand line rest
  | 0x7C, rest => .ofMark .bar line rest
  | 0x28, rest => .ofMark .leftParen line rest
  | 0x29, rest => .ofMark .rightParen line rest
  | 0x7B, rest => .ofMark .leftBrace line rest
  | 0x7D, rest => .ofMark .rightBrace line rest
  | 0x5D, rest => .ofMark .rightBracket line rest
  | 0x3B, rest => .ofMark .semicolon line rest
  | 0x2C, rest => .ofMark .comma line rest
  | 0x22, rest => scanQuoted 0x22 line rest
  | 0x27, rest => scanQuoted 0x27 line rest
  | 0x2E, d :: rest =>
    if isDigit d then scanNumber line [0x2E] (d :: rest) else .ofMark .dot line (d :: rest)
  | 0x2E, [] => .ofMark .dot line []
  | b, rest =>
    if isSpace b then .blank line rest
    else if isDigit b then scanNumber line [] (b :: rest)
    else if isNameStart b then
      let word := (b :: rest.takeWhile isNameByte).toByteArray
      .token ⟨.ofWord word, line, word⟩ (rest.dropWhile isNameByte)
    else .token ⟨.stray b, line, [b].toByteArray⟩ rest

/-- The tokens of a source from a line on, up to `fuel` tokens and blanks. -/
def tokensFrom : Nat → Nat → List UInt8 → List Lexeme
  | 0, line, _ => [⟨.eof, line, ByteArray.empty⟩]
  | _ + 1, line, [] => [⟨.eof, line, ByteArray.empty⟩]
  | fuel + 1, line, b :: rest =>
    match scanFirst line b rest with
    | .blank line rest => tokensFrom fuel line rest
    | .token l rest =>
      match l.token with
      | .fault _ => [l]
      | _ => l :: tokensFrom fuel l.line rest

/-- The tokens of a source. The last one is the end of the source or a fault. -/
def tokens (source : List UInt8) : List Lexeme :=
  tokensFrom (source.length + 1) 1 source

end Stencil.Lua
