import Stencil.Lua.Token

/-!
# Patterns

Lua patterns: single bytes and classes of bytes, repetitions, captures, balanced pairs, frontiers
and back references. A fault in a pattern counts only when a match gets to it.

* `Pattern.ofBytes`: the items of a pattern;
* `Pattern.matchAt`: the match of a pattern at a position: where it ends, and its captures.
-/

namespace Stencil.Lua

/-- The byte at a position. -/
def byteAt (s : Bytes) (i : Nat) : Option UInt8 :=
  if h : i < s.size then some s[i] else none

namespace Pattern

/-- A part of a set of bytes. -/
inductive Member where
  | range (low high : UInt8)
  /-- A class by its letter, or the byte itself if it is not the letter of a class. -/
  | named (letter : UInt8)
  deriving Repr, BEq, DecidableEq, Inhabited

/-- A class of bytes. -/
inductive ByteClass where
  | any
  | named (letter : UInt8)
  | byte (b : UInt8)
  | set (negated : Bool) (members : List Member)
  deriving Repr, BEq, DecidableEq, Inhabited

/-- How often a class is repeated. -/
inductive Repetition where
  | once
  | optional
  /-- As often as possible, at least `least` times. -/
  | greedy (least : Nat)
  /-- As rarely as possible. -/
  | lazy
  deriving Repr, BEq, DecidableEq, Inhabited

/-- An item of a pattern. -/
inductive Item where
  | single (c : ByteClass) (r : Repetition)
  | openCapture
  | closeCapture
  /-- A capture of the position. -/
  | position
  /-- From one byte to the byte that balances it. -/
  | balanced (opening closing : UInt8)
  /-- Between a byte outside a set and one inside. -/
  | frontier (c : ByteClass)
  /-- What a capture captured. -/
  | back (digit : UInt8)
  /-- The end of the subject. -/
  | finish
  | fault (reason : String)
  deriving Repr, BEq, DecidableEq, Inhabited

/-! ## Classes -/

/-- Whether a byte is punctuation. -/
def isPunctuation (b : UInt8) : Bool :=
  0x21 ≤ b && b ≤ 0x7E && !isLetter b && !isDigit b

/-- Whether a byte is in the class of a small letter, if the letter has one. -/
def inClass (b letter : UInt8) : Option Bool :=
  match letter with
  | 0x61 => some (isLetter b)
  | 0x63 => some (b < 0x20 || b == 0x7F)
  | 0x64 => some (isDigit b)
  | 0x67 => some (0x21 ≤ b && b ≤ 0x7E)
  | 0x6C => some (0x61 ≤ b && b ≤ 0x7A)
  | 0x70 => some (isPunctuation b)
  | 0x73 => some (isSpace b)
  | 0x75 => some (0x41 ≤ b && b ≤ 0x5A)
  | 0x77 => some (isLetter b || isDigit b)
  | 0x78 => some (isHexDigit b)
  | _ => none

/-- Whether a byte is in the class of a letter; a capital letter stands for the other bytes. -/
def inNamed (b letter : UInt8) : Bool :=
  if 0x41 ≤ letter && letter ≤ 0x5A then
    match inClass b (letter + 0x20) with
    | some inside => !inside
    | none => b == letter
  else (inClass b letter).getD (b == letter)

/-- Whether a byte is in a part of a set. -/
def Member.contains (b : UInt8) : Member → Bool
  | .range low high => low ≤ b && b ≤ high
  | .named letter => inNamed b letter

/-- Whether a byte is in a class. -/
def ByteClass.contains (b : UInt8) : ByteClass → Bool
  | .any => true
  | .named letter => inNamed b letter
  | .byte c => b == c
  | .set negated members => members.any (Member.contains b) != negated

/-! ## Reading patterns -/

/-- The bytes of a set up to its closing bracket, and what follows; a bracket at the start does
not close it. -/
def splitSet : Bool → List UInt8 → Option (List UInt8 × List UInt8)
  | _, [] => none
  | _, [0x25] => none
  | _, 0x25 :: c :: rest => (splitSet false rest).map fun (inside, rest) => (0x25 :: c :: inside, rest)
  | first, b :: rest =>
    if b == 0x5D && !first then some ([], rest)
    else (splitSet false rest).map fun (inside, rest) => (b :: inside, rest)

/-- The parts of a set. -/
def membersOf : List UInt8 → List Member
  | 0x25 :: c :: rest => .named c :: membersOf rest
  | low :: 0x2D :: high :: rest => .range low high :: membersOf rest
  | b :: rest => .range b b :: membersOf rest
  | [] => []

/-- The set after an opening bracket, and what follows it. -/
def readSet (cs : List UInt8) : Option (ByteClass × List UInt8) :=
  let (negated, cs) :=
    match cs with
    | 0x5E :: rest => (true, rest)
    | cs => (false, cs)
  (splitSet true cs).map fun (inside, rest) => (.set negated (membersOf inside), rest)

/-- The repetition mark at the start, and what follows it. -/
def readRepetition : List UInt8 → Repetition × List UInt8
  | 0x2A :: rest => (.greedy 0, rest)
  | 0x2B :: rest => (.greedy 1, rest)
  | 0x2D :: rest => (.lazy, rest)
  | 0x3F :: rest => (.optional, rest)
  | rest => (.once, rest)

/-- The reason for a set that never closes. -/
def unclosedSet : String := "malformed pattern (missing ']')"

/-- The first item of a pattern, and what follows it. -/
def readItem (b : UInt8) (rest : List UInt8) : Item × List UInt8 :=
  let single (c : ByteClass) (rest : List UInt8) : Item × List UInt8 :=
    let (r, rest) := readRepetition rest
    (.single c r, rest)
  match b, rest with
  | 0x28, 0x29 :: rest => (.position, rest)
  | 0x28, rest => (.openCapture, rest)
  | 0x29, rest => (.closeCapture, rest)
  | 0x24, [] => (.finish, [])
  | 0x25, [] => (.fault "malformed pattern (ends with '%')", [])
  | 0x25, 0x62 :: rest =>
    match rest with
    | opening :: closing :: rest => (.balanced opening closing, rest)
    | _ => (.fault "malformed pattern (missing arguments to '%b')", [])
  | 0x25, 0x66 :: rest =>
    match rest with
    | 0x5B :: rest =>
      match readSet rest with
      | some (c, rest) => (.frontier c, rest)
      | none => (.fault unclosedSet, [])
    | _ => (.fault "missing '[' after '%f' in pattern", [])
  | 0x25, c :: rest => if isDigit c then (.back c, rest) else single (.named c) rest
  | 0x5B, rest =>
    match readSet rest with
    | some (c, rest) => single c rest
    | none => (.fault unclosedSet, [])
  | 0x2E, rest => single .any rest
  | b, rest => single (.byte b) rest

/-- The items of a pattern, at most `fuel` of them. -/
def readItems : Nat → List UInt8 → List Item
  | 0, _ => []
  | _, [] => []
  | fuel + 1, b :: rest =>
    let (item, rest) := readItem b rest
    item :: readItems fuel rest

/-- The items of a pattern. -/
def ofBytes (cs : List UInt8) : List Item :=
  readItems cs.length cs

/-! ## Matching -/

/-- A capture: where it starts, and where it ends. -/
inductive Capture where
  | opened (start : Nat)
  | closed (start stop : Nat)
  | position (start : Nat)
  deriving Repr, BEq, DecidableEq, Inhabited

/-- The captures of a match so far. -/
abbrev Captures := Array Capture

/-- The outcome of a match: where it ends, with its captures; none if there is no match; or the
fault that it met. -/
abbrev Outcome := Except String (Option (Nat × Captures))

/-- The end of the part from a position to where the depth of nested pairs comes back to zero. -/
def balancedEnd (s : Bytes) (opening closing : UInt8) : Nat → Nat → Nat → Option Nat
  | 0, _, _ => none
  | fuel + 1, i, depth =>
    match byteAt s i with
    | none => none
    | some b =>
      if b == closing then
        if depth == 1 then some (i + 1) else balancedEnd s opening closing fuel (i + 1) (depth - 1)
      else balancedEnd s opening closing fuel (i + 1) (if b == opening then depth + 1 else depth)

/-- How many bytes from a position on are in a class. -/
def countClass (s : Bytes) (c : ByteClass) : Nat → Nat → Nat
  | 0, _ => 0
  | fuel + 1, i =>
    match byteAt s i with
    | some b => if c.contains b then countClass s c fuel (i + 1) + 1 else 0
    | none => 0

/-- The first match among those after `n`, `n - 1`, … `least` bytes. -/
def greedyMatch (next : Nat → Outcome) (i least : Nat) : Nat → Outcome
  | 0 => if least == 0 then next i else .ok none
  | n + 1 =>
    if n + 1 < least then .ok none
    else
      match next (i + (n + 1)) with
      | .ok none => greedyMatch next i least n
      | found => found

/-- The first match among those after 0, 1, … `n` bytes. -/
def lazyMatch (next : Nat → Outcome) : Nat → Nat → Outcome
  | i, 0 => next i
  | i, n + 1 =>
    match next i with
    | .ok none => lazyMatch next (i + 1) n
    | found => found

/-- The captures with the innermost open one closed. -/
def closeLast (cs : Captures) (stop : Nat) : Option Captures :=
  let index := (List.range cs.size).reverse.find? fun i =>
    match cs[i]? with
    | some (.opened _) => true
    | _ => false
  index.map fun i =>
    cs.modify i fun
      | .opened start => .closed start stop
      | c => c

/-- Whether a subject has the same bytes at two positions. -/
def sameBytes (s : Bytes) (i j : Nat) : Nat → Bool
  | 0 => true
  | n + 1 => byteAt s i == byteAt s j && sameBytes s (i + 1) (j + 1) n

/-- The match of items at a position, with the captures so far. -/
def matchItems (s : Bytes) : List Item → Nat → Captures → Outcome
  | [], i, cs => .ok (some (i, cs))
  | item :: rest, i, cs =>
    match item with
    | .fault reason => .error reason
    | .finish => .ok (if i == s.size then some (i, cs) else none)
    | .openCapture =>
      if 32 ≤ cs.size then .error "too many captures" else matchItems s rest i (cs.push (.opened i))
    | .position =>
      if 32 ≤ cs.size then .error "too many captures"
      else matchItems s rest i (cs.push (.position i))
    | .closeCapture =>
      match closeLast cs i with
      | some cs => matchItems s rest i cs
      | none => .error "invalid pattern capture"
    | .balanced opening closing =>
      if byteAt s i == some opening then
        match balancedEnd s opening closing (s.size - i) (i + 1) 1 with
        | some i => matchItems s rest i cs
        | none => .ok none
      else .ok none
    | .frontier c =>
      let before := if i == 0 then 0 else (byteAt s (i - 1)).getD 0
      let after := (byteAt s i).getD 0
      if !c.contains before && c.contains after then matchItems s rest i cs else .ok none
    | .back digit =>
      let missing : Outcome :=
        .error ("invalid capture index %" ++ toString ((digit.toNat : Int) - 0x30))
      if digit == 0x30 then missing
      else
        match cs[digit.toNat - 0x31]? with
        | some (.closed start stop) =>
          let n := stop - start
          if i + n ≤ s.size && sameBytes s start i n then matchItems s rest (i + n) cs
          else .ok none
        | some (.position _) => .ok none
        | _ => missing
    | .single c .once =>
      match byteAt s i with
      | some b => if c.contains b then matchItems s rest (i + 1) cs else .ok none
      | none => .ok none
    | .single c .optional =>
      match byteAt s i with
      | some b =>
        if c.contains b then
          match matchItems s rest (i + 1) cs with
          | .ok none => matchItems s rest i cs
          | found => found
        else matchItems s rest i cs
      | none => matchItems s rest i cs
    | .single c (.greedy least) =>
      greedyMatch (fun j => matchItems s rest j cs) i least (countClass s c (s.size - i) i)
    | .single c .lazy =>
      lazyMatch (fun j => matchItems s rest j cs) i (countClass s c (s.size - i) i)

/-- A pattern: whether it matches only where the search starts, and its items. -/
structure Compiled where
  anchored : Bool
  items : List Item
  deriving Inhabited

/-- Reads a pattern for a search, in which a caret at its start ties it down. -/
def compile (p : Bytes) : Compiled :=
  match p.data.toList with
  | 0x5E :: rest => ⟨true, ofBytes rest⟩
  | cs => ⟨false, ofBytes cs⟩

/-- The match of a pattern at a position. -/
def matchAt (s : Bytes) (items : List Item) (i : Nat) : Outcome :=
  matchItems s items i #[]

/-- The first match at a position or, if the pattern is not tied down, at one of the next `n`
positions: where it starts, where it ends, and its captures. -/
def search (s : Bytes) (p : Compiled) : Nat → Nat → Except String (Option (Nat × Nat × Captures))
  | n, i =>
    match matchAt s p.items i with
    | .error e => .error e
    | .ok (some (stop, cs)) => .ok (some (i, stop, cs))
    | .ok none =>
      match n with
      | 0 => .ok none
      | n + 1 => if p.anchored then .ok none else search s p n (i + 1)

/-- Whether a pattern has no byte with a special meaning. -/
def isPlain (p : Bytes) : Bool :=
  p.data.toList.all fun b =>
    !([0x5E, 0x24, 0x2A, 0x2B, 0x3F, 0x2E, 0x28, 0x29, 0x5B, 0x25, 0x2D] : List UInt8).contains b

/-- Where a text stands in a subject, from a position on; `n` positions are tried. -/
def findPlain (s p : Bytes) : Nat → Nat → Option Nat
  | 0, _ => none
  | n + 1, i =>
    if i + p.size ≤ s.size && s.extract i (i + p.size) == p then some i
    else findPlain s p n (i + 1)

end Pattern

end Stencil.Lua
