import Stencil.Lua.Format
import Stencil.Lua.Library.Argument
import Stencil.Lua.Pattern

/-!
# The library `string`

Parts of strings, patterns and formatted texts. Positions count from 1, negative ones from the end.
-/

namespace Stencil.Lua.Strings

open Argument

/-! ## Positions -/

/-- Where a part starts, counted from 1, for a position that may be negative. -/
def startPosition (i : Int64) (length : Nat) : Nat :=
  if 0 < i then i.toInt.toNat
  else if i == 0 then 1
  else if i.toInt < -(length : Int) then 1
  else (length + i.toInt + 1).toNat

/-- Where a part ends, counted from 1, for a position that may be negative. -/
def endPosition (i : Int64) (length : Nat) : Nat :=
  if i.toInt > length then length
  else if 0 ≤ i then i.toInt.toNat
  else if i.toInt < -(length : Int) then 0
  else (length + i.toInt + 1).toNat

/-- The bytes from a position to a position, both counted from 1. -/
def part (b : Bytes) (first last : Nat) : Bytes :=
  b.extract (first - 1) last

/-! ## Basic functions -/

/-- The length of a string. -/
def len (vs : List Value) : Run (List Value) := do
  return [.int (Int64.ofNat (← string 1 vs).size)]

/-- A part of a string. -/
def sub (vs : List Value) : Run (List Value) := do
  let b ← string 1 vs
  let first := startPosition (← integer 2 vs) b.size
  let last := endPosition (← integerOr 3 vs (-1)) b.size
  return [.string (part b first last)]

/-- A string with each byte changed. -/
def mapBytes (f : UInt8 → UInt8) (vs : List Value) : Run (List Value) := do
  return [.string ((← string 1 vs).data.map f).toList.toByteArray]

/-- A letter as a small letter. -/
def lowerByte (b : UInt8) : UInt8 :=
  if 0x41 ≤ b && b ≤ 0x5A then b + 0x20 else b

/-- A letter as a capital. -/
def upperByte (b : UInt8) : UInt8 :=
  if 0x61 ≤ b && b ≤ 0x7A then b - 0x20 else b

/-- A string backwards. -/
def reverse (vs : List Value) : Run (List Value) := do
  return [.string (← string 1 vs).data.toList.reverse.toByteArray]

/-- So many copies of a string, with a separator between them. -/
def rep (vs : List Value) : Run (List Value) := do
  let b ← string 1 vs
  let n ← integer 2 vs
  let separator ← stringOr 3 vs ByteArray.empty
  if n ≤ 0 then return [.string ByteArray.empty]
  else
    let n := n.toInt.toNat
    let size := (b.size + separator.size) * n
    if Nat.pow 2 63 ≤ size then Run.complain (bytesOf "resulting string too large")
    else if Nat.pow 2 32 ≤ size then Run.raise (.text "not enough memory")
    else
      let unit := separator ++ b
      return [.string (if size == 0 then ByteArray.empty
        else Nat.fold (n - 1) (fun _ _ all => all ++ unit) b)]

/-- The bytes of a part of a string, as integers. -/
def byte (vs : List Value) : Run (List Value) := do
  let b ← string 1 vs
  let i ← integerOr 2 vs 1
  let first := startPosition i b.size
  let last := endPosition (← integerOr 3 vs i) b.size
  return (part b first last).data.toList.map fun c => .int (Int64.ofNat c.toNat)

/-- The bytes of the arguments from an argument on. -/
def bytesFrom (vs : List Value) : Nat → Nat → Run (List UInt8)
  | 0, _ => pure []
  | count + 1, n => do
    let i ← integer n vs
    require (0 ≤ i && i ≤ 255) n "value out of range"
    let rest ← bytesFrom vs count (n + 1)
    return UInt8.ofNat i.toInt.toNat :: rest

/-- The string of the bytes that integers give. -/
def char (vs : List Value) : Run (List Value) := do
  return [.string (← bytesFrom vs vs.length 1).toByteArray]

/-! ## Patterns -/

/-- A capture as a value. -/
def captureValue (s : Bytes) : Pattern.Capture → Run Value
  | .opened _ => Run.complain (bytesOf "unfinished capture")
  | .closed start stop => pure (.string (s.extract start stop))
  | .position start => pure (.int (Int64.ofNat (start + 1)))

/-- Captures as values. -/
def captureValues (s : Bytes) : List Pattern.Capture → Run (List Value)
  | [] => pure []
  | c :: cs => do
    let v ← captureValue s c
    let vs ← captureValues s cs
    return v :: vs

/-- The captures of a match as values; the whole match if it has none. -/
def matchValues (s : Bytes) (start stop : Nat) (cs : Pattern.Captures) : Run (List Value) :=
  if cs.isEmpty then pure [.string (s.extract start stop)] else captureValues s cs.toList

/-- The outcome of a match, or the error it met. -/
def settle {α : Type} : Except String α → Run α
  | .ok a => pure a
  | .error reason => Run.complain (bytesOf reason)

/-- Finds a pattern: where it starts and ends, with its captures (`find`), or its captures. -/
def findOrMatch (find : Bool) (vs : List Value) : Run (List Value) := do
  let s ← string 1 vs
  let p ← string 2 vs
  let first := startPosition (← integerOr 3 vs 1) s.size - 1
  if s.size < first then return [.nil]
  else if find && ((value 4 vs).truth || Pattern.isPlain p) then
    match Pattern.findPlain s p (s.size + 1 - first) first with
    | some i => return [.int (Int64.ofNat (i + 1)), .int (Int64.ofNat (i + p.size))]
    | none => return [.nil]
  else
    match ← settle (Pattern.search s (Pattern.compile p) (s.size - first) first) with
    | none => return [.nil]
    | some (start, stop, cs) =>
      if find then
        let captured ← captureValues s cs.toList
        return .int (Int64.ofNat (start + 1)) :: .int (Int64.ofNat stop) :: captured
      else matchValues s start stop cs

/-- An iterator over the matches of a pattern. -/
def gmatch (vs : List Value) : Run (List Value) := do
  let s ← string 1 vs
  let p ← string 2 vs
  let first := startPosition (← integerOr 3 vs 1) s.size - 1
  let place ← Run.modifyGet fun store =>
    store.newNative (.matches s p (min first (s.size + 1)) none)
  return [.native place]

/-- The first match at one of `n` positions that does not end where the last match did. -/
def nextMatch (s : Bytes) (items : List Pattern.Item) (lastEnd : Option Nat) :
    Nat → Nat → Except String (Option (Nat × Nat × Pattern.Captures))
  | 0, _ => .ok none
  | n + 1, i =>
    match Pattern.matchAt s items i with
    | .error e => .error e
    | .ok (some (stop, cs)) =>
      if lastEnd == some stop then nextMatch s items lastEnd n (i + 1)
      else .ok (some (i, stop, cs))
    | .ok none => nextMatch s items lastEnd n (i + 1)

/-- The next match of an iterator. -/
def gmatchStep (place : Nat) (s p : Bytes) (position : Nat) (lastEnd : Option Nat) :
    Run (List Value) := do
  let items := Pattern.ofBytes p.data.toList
  match ← settle (nextMatch s items lastEnd (s.size + 1 - position) position) with
  | none => return [.nil]
  | some (start, stop, cs) =>
    Run.modify fun store => store.setNative place (.matches s p stop (some stop))
    matchValues s start stop cs

/-- The text that a capture puts into a replacement. -/
def captureText (s : Bytes) (start stop : Nat) (cs : Pattern.Captures) (index : Nat) :
    Run Bytes := do
  match cs[index]? with
  | some c =>
    match (← captureValue s c).toBytes with
    | some b => return b
    | none => return ByteArray.empty
  | none =>
    if index == 0 then return s.extract start stop
    else Run.complain (bytesOf ("invalid capture index %" ++ toString (index + 1)))

/-- A replacement with the captures it asks for. -/
def expand (s : Bytes) (start stop : Nat) (cs : Pattern.Captures) :
    List UInt8 → Bytes → Run Bytes
  | [], out => pure out
  | 0x25 :: c :: rest, out =>
    if c == 0x25 then expand s start stop cs rest (out.push c)
    else if c == 0x30 then expand s start stop cs rest (out ++ s.extract start stop)
    else if isDigit c then do
      let b ← captureText s start stop cs (c.toNat - 0x31)
      expand s start stop cs rest (out ++ b)
    else Run.complain (bytesOf "invalid use of '%' in replacement string")
  | [0x25], _ => Run.complain (bytesOf "invalid use of '%' in replacement string")
  | c :: rest, out => expand s start stop cs rest (out.push c)

/-- What a match is replaced by: a text with captures, the field of a table, or the result of a
function. The match stays if that is nil or false. -/
def replacement (s : Bytes) (substitute : Value) (start stop : Nat) (cs : Pattern.Captures) :
    Run Bytes := do
  match substitute.toBytes with
  | some text => expand s start stop cs text.data.toList ByteArray.empty
  | none =>
    let v ←
      match substitute with
      | .table _ =>
        Run.index 0 none substitute (Value.first (← matchValues s start stop (cs.take 1)))
      | f => Run.callOne f (← matchValues s start stop cs) ⟨0, none⟩
    if !v.truth then return s.extract start stop
    else
      match v.toBytes with
      | some b => return b
      | none =>
        Run.complain (bytesOf ("invalid replacement value (a " ++ v.typeName ++ ")"))

/-- A subject with matches replaced from a position on, at most `limit` of them, and how many were
replaced. -/
def replaceFrom (s : Bytes) (p : Pattern.Compiled) (substitute : Value) (limit : Nat) :
    Nat → Nat → Option Nat → Nat → Bytes → Run (Bytes × Nat)
  | 0, i, _, done, out => pure (out ++ s.extract i s.size, done)
  | fuel + 1, i, lastEnd, done, out => do
    if limit ≤ done then return (out ++ s.extract i s.size, done)
    else
      let found ← settle (Pattern.matchAt s p.items i)
      let found := found.filter fun (stop, _) => lastEnd != some stop
      match found with
      | some (stop, cs) =>
        let text ← replacement s substitute i stop cs
        let out := out ++ text
        if p.anchored then return (out ++ s.extract stop s.size, done + 1)
        else replaceFrom s p substitute limit fuel stop (some stop) (done + 1) out
      | none =>
        match byteAt s i with
        | none => return (out, done)
        | some b =>
          if p.anchored then return (out ++ s.extract i s.size, done)
          else replaceFrom s p substitute limit fuel (i + 1) lastEnd done (out.push b)

/-- A subject with the matches of a pattern replaced, and how many were. -/
def gsub (vs : List Value) : Run (List Value) := do
  let s ← string 1 vs
  let p ← string 2 vs
  let substitute := value 3 vs
  let limit ← integerOr 4 vs (Int64.ofNat (s.size + 1))
  let usable :=
    match substitute with
    | .table _ => true
    | v => v.isFunction || v.toBytes.isSome
  unless usable do refuseType 3 "string/function/table" vs
  let (out, done) ← replaceFrom s (Pattern.compile p) substitute limit.toInt.toNat (2 * s.size + 2) 0
    none 0 ByteArray.empty
  return [.string out, .int (Int64.ofNat done)]

/-! ## Formatted texts -/

/-- The flags, width and precision of a conversion, and what follows them. -/
def splitConversion (cs : List UInt8) : List UInt8 × List UInt8 :=
  let isPart (b : UInt8) : Bool := Layout.floatFlags.contains b || isDigit b || b == 0x2E
  (cs.takeWhile isPart, cs.dropWhile isPart)

/-- Raises that a conversion is not one. -/
def refuseConversion {α : Type} (spelling : List UInt8) : Run α :=
  Run.complain (bytesOf "invalid conversion '%" ++
    (spelling.takeWhile (· ≠ 0)).toByteArray ++ bytesOf "' to 'format'")

/-- The layout of a conversion that allows some flags. -/
def layout (flags : List UInt8) (precise : Bool) (marks : List UInt8) (letter : UInt8) :
    Run Layout :=
  match Layout.read flags precise marks with
  | some l => pure l
  | none =>
    Run.complain (bytesOf "invalid conversion specification: '%" ++
      (marks ++ [letter]).toByteArray ++ bytesOf "'")

/-- A value as Lua source. -/
def literal (n : Nat) (vs : List Value) : Run Bytes :=
  match value n vs with
  | .string b => pure (quotedBytes b)
  | .int i => pure (quotedInt i)
  | .float f => pure (quotedFloat f)
  | .nil => pure (bytesOf "nil")
  | .bool b => pure (bytesOf (toString b))
  | _ => refuse n (bytesOf "value has no literal form")

/-- The text of an argument, as the conversion of a letter with flags, width and precision. -/
def convert (letter : UInt8) (marks : List UInt8) (n : Nat) (vs : List Value) : Run Bytes := do
  let float (c : Char) (upper : Bool) : Run Bytes := do
    let f ← Argument.float n vs
    let l ← layout Layout.floatFlags true marks letter
    return l.float c upper f
  let unsigned (flags : List UInt8) (base : Nat) (upper : Bool) : Run Bytes := do
    let i ← integer n vs
    let l ← layout flags true marks letter
    return l.unsigned base upper i
  match Char.ofNat letter.toNat with
  | 'c' =>
    let l ← layout Layout.bytesFlags false marks letter
    let i ← integer n vs
    return l.bytes [i.toUInt64.toUInt8].toByteArray
  | 'd' | 'i' =>
    let i ← integer n vs
    let l ← layout Layout.integerFlags true marks letter
    return l.integer i
  | 'u' => unsigned Layout.unsignedFlags 10 false
  | 'o' => unsigned Layout.baseFlags 8 false
  | 'x' => unsigned Layout.baseFlags 16 false
  | 'X' => unsigned Layout.baseFlags 16 true
  | 'a' =>
    let l ← layout Layout.floatFlags true marks letter
    return l.float 'a' false (← Argument.float n vs)
  | 'A' =>
    let l ← layout Layout.floatFlags true marks letter
    return l.float 'a' true (← Argument.float n vs)
  | 'e' => float 'e' false
  | 'E' => float 'e' true
  | 'f' => float 'f' false
  | 'g' => float 'g' false
  | 'G' => float 'g' true
  | 'p' =>
    let l ← layout Layout.bytesFlags false marks letter
    let s ← Run.store
    return l.bytes (match value n vs with
      | .nil | .bool _ | .int _ | .float _ => bytesOf "(null)"
      | v => s.identity v)
  | 'q' =>
    if marks.isEmpty then literal n vs
    else Run.complain (bytesOf "specifier '%q' cannot have modifiers")
  | 's' =>
    let b ← Run.textOf (value n vs)
    if marks.isEmpty then return b
    else
      require (!b.data.contains 0) n "string contains zeros"
      let l ← layout Layout.bytesFlags true marks letter
      if l.precision.isNone && 100 ≤ b.size then return b else return l.bytes b
  | _ => refuseConversion (marks ++ [letter])

/-- A format with its conversions replaced by the texts of arguments, from an argument on. -/
def formatFrom (vs : List Value) : Nat → List UInt8 → Nat → Bytes → Run Bytes
  | 0, _, _, out => pure out
  | _, [], _, out => pure out
  | fuel + 1, 0x25 :: 0x25 :: rest, n, out => formatFrom vs fuel rest n (out.push 0x25)
  | fuel + 1, 0x25 :: rest, n, out => do
    if vs.length < n then refuse n (bytesOf "no value")
    else
      let (marks, rest) := splitConversion rest
      if 22 ≤ marks.length + 1 then Run.complain (bytesOf "invalid format string to 'format'")
      else
        match rest with
        | letter :: rest =>
          let text ← convert letter marks n vs
          formatFrom vs fuel rest (n + 1) (out ++ text)
        | [] => refuseConversion marks
  | fuel + 1, b :: rest, n, out => formatFrom vs fuel rest n (out.push b)

/-- A formatted text. -/
def format (vs : List Value) : Run (List Value) := do
  let cs := (← string 1 vs).data.toList
  return [.string (← formatFrom vs (cs.length + 1) cs 2 ByteArray.empty)]

/-! ## Arithmetic -/

/-- The number of an operand of an operator on strings. -/
def operandNumber (v : Value) : Option Numeral :=
  v.toNumber

/-- An operator on strings that spell numbers. Another operand may have a metamethod. -/
def operator (op : BinaryOp) (event : String) (vs : List Value) : Run (List Value) := do
  let a := value 1 vs
  let b := value 2 vs
  match operandNumber a, operandNumber b with
  | some x, some y => return [← Run.operate 0 op (.ofNumeral x) (.ofNumeral y) none none]
  | _, _ =>
    let s ← Run.store
    let handler :=
      match b with
      | .string _ => Value.nil
      | b => s.metamethod b ("__" ++ event)
    match handler with
    | .nil =>
      Run.complain (bytesOf ("attempt to " ++ event ++ " a '" ++ a.typeName ++ "' with a '" ++
        b.typeName ++ "'"))
    | handler => return [← Run.callOne handler [a, b] ⟨0, none⟩]

/-- The negative of a string that spells a number. -/
def negative (vs : List Value) : Run (List Value) := do
  match operandNumber (value 1 vs) with
  | some x => return [.ofNumeral x.negate]
  | none => operator .sub "unm" vs

/-! ## Functions -/

/-- The bytes of a function that is written in Lua. -/
def dump (vs : List Value) : Run (List Value) := do
  let f ← function 1 vs
  let s ← Run.store
  let bytes :=
    match f with
    | .closure p => s.system.dump (s.closure p).proto (value 2 vs).truth
    | _ => none
  match bytes with
  | some b => return [.string b]
  | none => Run.complain (bytesOf "unable to dump given function")

end Stencil.Lua.Strings
