import Stencil.Lua.Library.Strings

/-!
# Packed strings

The functions `string.pack`, `string.packsize` and `string.unpack`: values as bytes in a layout that
a format spells. An option of a format is a letter, for some with a number after it.
-/

namespace Stencil.Lua.Packing

open Argument

/-- What an option of a format stands for. -/
inductive Kind where
  | signed
  | unsigned
  | single
  | double
  /-- Bytes of a fixed number. -/
  | chars
  /-- Bytes after their number. -/
  | counted
  /-- Bytes up to a zero. -/
  | terminated
  /-- A byte that stands for nothing. -/
  | padding
  /-- The bytes up to the alignment of the next option. -/
  | align
  | nothing
  deriving Repr, BEq, DecidableEq, Inhabited

/-- How values are laid out from an option on, and the rest of the format. -/
structure Plan where
  little : Bool
  maxAlign : Nat
  rest : List UInt8
  deriving Inhabited

/-- A number at the start of a format, and what follows. -/
def readCount (cs : List UInt8) : Option Nat × List UInt8 :=
  let digits := cs.takeWhile isDigit
  if digits.isEmpty then (none, cs) else (some (decimalValue digits), cs.drop digits.length)

/-- A size at the start of a format, or else a given one. -/
def readSize (p : Plan) (otherwise : Nat) : Run (Nat × Plan) := do
  let (n, rest) := readCount p.rest
  let n := n.getD otherwise
  if n < 1 || 16 < n then
    Run.complain (bytesOf ("integral size (" ++ toString n ++ ") out of limits [1,16]"))
  else return (n, { p with rest := rest })

/-- The next option of a format: what it stands for, and its size. -/
def readOption (letter : UInt8) (p : Plan) : Run (Kind × Nat × Plan) := do
  match Char.ofNat letter.toNat with
  | 'b' => return (.signed, 1, p)
  | 'B' => return (.unsigned, 1, p)
  | 'h' => return (.signed, 2, p)
  | 'H' => return (.unsigned, 2, p)
  | 'l' | 'j' => return (.signed, 8, p)
  | 'L' | 'J' | 'T' => return (.unsigned, 8, p)
  | 'f' => return (.single, 4, p)
  | 'n' | 'd' => return (.double, 8, p)
  | 'i' =>
    let (n, p) ← readSize p 4
    return (.signed, n, p)
  | 'I' =>
    let (n, p) ← readSize p 4
    return (.unsigned, n, p)
  | 's' =>
    let (n, p) ← readSize p 8
    return (.counted, n, p)
  | 'c' =>
    match readCount p.rest with
    | (some n, rest) => return (.chars, n, { p with rest := rest })
    | (none, _) => Run.complain (bytesOf "missing size for format option 'c'")
  | 'z' => return (.terminated, 0, p)
  | 'x' => return (.padding, 1, p)
  | 'X' => return (.align, 0, p)
  | ' ' => return (.nothing, 0, p)
  | '<' | '=' => return (.nothing, 0, { p with little := true })
  | '>' => return (.nothing, 0, { p with little := false })
  | '!' =>
    let (n, p) ← readSize p 8
    return (.nothing, 0, { p with maxAlign := n })
  | _ =>
    Run.complain (bytesOf "invalid format option '" ++ [letter].toByteArray ++ bytesOf "'")

/-- The next option of a format with the bytes that align it, after so many bytes. -/
def readAligned (total : Nat) (letter : UInt8) (p : Plan) : Run (Kind × Nat × Nat × Plan) := do
  let (kind, size, p) ← readOption letter p
  let (align, p) ←
    if kind == .align then do
      match p.rest with
      | [] => refuse 1 (bytesOf "invalid next option for option 'X'")
      | next :: rest =>
        let (k, n, p) ← readOption next { p with rest := rest }
        if k == .chars || n == 0 then refuse 1 (bytesOf "invalid next option for option 'X'")
        else pure (n, p)
    else pure (size, p)
  if align ≤ 1 || kind == .chars then return (kind, size, 0, p)
  else
    let align := min align p.maxAlign
    if align.nextPowerOfTwo != align then
      refuse 1 (bytesOf "format asks for alignment not power of 2")
    else return (kind, size, (align - total % align) % align, p)

/-- The lowest `size` bytes of an integer. -/
def integerBytes (little : Bool) (size : Nat) (i : Int) : Bytes :=
  let n := (i % Int.pow 2 (8 * size)).toNat
  let bytes := (List.range size).map fun k => UInt8.ofNat (n / Nat.pow 2 (8 * k) % 256)
  (if little then bytes else bytes.reverse).toByteArray

/-- The natural that bytes spell. -/
def bytesValue (little : Bool) (b : Bytes) : Nat :=
  let bytes := b.data.toList
  (if little then bytes.reverse else bytes).foldl (fun n c => n * 256 + c.toNat) 0

/-- The bytes of an argument, by an option. -/
def packValue (p : Plan) (kind : Kind) (size n : Nat) (vs : List Value) : Run Bytes := do
  match kind with
  | .signed =>
    let i ← integer n vs
    let limit : Int := Int.pow 2 (8 * size - 1)
    require (8 ≤ size || (-limit ≤ i.toInt && i.toInt < limit)) n "integer overflow"
    return integerBytes p.little size i.toInt
  | .unsigned =>
    let i := (← integer n vs).toUInt64.toNat
    require (8 ≤ size || i < Nat.pow 2 (8 * size)) n "unsigned overflow"
    return integerBytes p.little size i
  | .single => return integerBytes p.little 4 (← float n vs).toFloat32.toBits.toNat
  | .double => return integerBytes p.little 8 (← float n vs).toBits.toNat
  | .chars =>
    let b ← string n vs
    require (b.size ≤ size) n "string longer than given size"
    return b ++ Layout.copies (size - b.size) 0
  | .counted =>
    let b ← string n vs
    require (8 ≤ size || b.size < Nat.pow 2 (8 * size)) n "string length does not fit in given size"
    return integerBytes p.little size b.size ++ b
  | .terminated =>
    let b ← string n vs
    require (!b.data.contains 0) n "string contains zeros"
    return b.push 0
  | .padding => return Layout.copies 1 0
  | .align | .nothing => return ByteArray.empty

/-- Whether an option takes an argument. -/
def Kind.takesValue : Kind → Bool
  | .padding | .align | .nothing => false
  | _ => true

/-- The bytes of arguments, from an argument on. -/
def packFrom (vs : List Value) : Nat → Plan → Nat → Bytes → Run Bytes
  | 0, _, _, out => pure out
  | fuel + 1, p, n, out =>
    match p.rest with
    | [] => pure out
    | letter :: rest => do
      let (kind, size, gap, p) ← readAligned out.size letter { p with rest := rest }
      let b ← packValue p kind size n vs
      packFrom vs fuel p (if kind.takesValue then n + 1 else n) (out ++ Layout.copies gap 0 ++ b)

/-- Arguments as bytes. -/
def pack (vs : List Value) : Run (List Value) := do
  let cs := (← string 1 vs).data.toList
  return [.string (← packFrom vs (cs.length + 1) ⟨true, 1, cs⟩ 2 ByteArray.empty)]

/-- How many bytes a format stands for, after so many. -/
def sizeFrom : Nat → Plan → Nat → Run Nat
  | 0, _, total => pure total
  | fuel + 1, p, total =>
    match p.rest with
    | [] => pure total
    | letter :: rest => do
      let (kind, size, gap, p) ← readAligned total letter { p with rest := rest }
      require (kind != .counted && kind != .terminated) 1 "variable-length format"
      require (total + gap + size < Nat.pow 2 31) 1 "format result too large"
      sizeFrom fuel p (total + gap + size)

/-- How many bytes a format stands for. -/
def packsize (vs : List Value) : Run (List Value) := do
  let cs := (← string 1 vs).data.toList
  return [.int (Int64.ofNat (← sizeFrom (cs.length + 1) ⟨true, 1, cs⟩ 0))]

/-- An integer of so many bytes, if it fits. -/
def unpackInteger (size : Nat) (isSigned : Bool) (n : Nat) : Run Value := do
  let value : Int :=
    if isSigned && Nat.pow 2 (8 * size - 1) ≤ n then n - Int.pow 2 (8 * size) else n
  if 8 < size && !(-(Int.pow 2 63) ≤ value && value < Int.pow 2 64) then
    Run.complain (bytesOf (toString size ++ "-byte integer does not fit into Lua Integer"))
  else return .int (Int64.ofInt value)

/-- The value of an option at a position, and the position after it. -/
def unpackValue (b : Bytes) (p : Plan) (kind : Kind) (size i : Nat) :
    Run (Option Value × Nat) := do
  let bits := bytesValue p.little (b.extract i (i + size))
  match kind with
  | .signed => return (some (← unpackInteger size true bits), i + size)
  | .unsigned => return (some (← unpackInteger size false bits), i + size)
  | .single => return (some (.float (Float32.ofBits (UInt32.ofNat bits)).toFloat), i + size)
  | .double => return (some (.float (Float.ofBits (UInt64.ofNat bits))), i + size)
  | .chars => return (some (.string (b.extract i (i + size))), i + size)
  | .counted =>
    require (bits ≤ b.size - i - size) 2 "data string too short"
    return (some (.string (b.extract (i + size) (i + size + bits))), i + size + bits)
  | .terminated =>
    let text := (b.extract i b.size).data.toList.takeWhile (· ≠ 0)
    require (i + text.length < b.size) 2 "unfinished string for format 'z'"
    return (some (.string text.toByteArray), i + text.length + 1)
  | .padding | .align | .nothing => return (none, i + size)

/-- The values of a format at a position, and the position after them. -/
def unpackFrom (b : Bytes) : Nat → Plan → Nat → Run (List Value)
  | 0, _, i => pure [.int (Int64.ofNat (i + 1))]
  | fuel + 1, p, i =>
    match p.rest with
    | [] => pure [.int (Int64.ofNat (i + 1))]
    | letter :: rest => do
      let (kind, size, gap, p) ← readAligned i letter { p with rest := rest }
      require (gap + size ≤ b.size - i) 2 "data string too short"
      let (v, i) ← unpackValue b p kind size (i + gap)
      let vs ← unpackFrom b fuel p i
      return v.toList ++ vs

/-- The values that bytes stand for. -/
def unpack (vs : List Value) : Run (List Value) := do
  let cs := (← string 1 vs).data.toList
  let b ← string 2 vs
  let i := Strings.startPosition (← integerOr 3 vs 1) b.size - 1
  require (i ≤ b.size) 3 "initial position out of string"
  unpackFrom b (cs.length + 1) ⟨true, 1, cs⟩ i

end Stencil.Lua.Packing
