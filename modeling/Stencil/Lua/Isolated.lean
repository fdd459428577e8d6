import Stencil.Lua.Numeral
import Stencil.Lua.System
import Stencil.Text.Utf8

/-!
# An isolated system

A system on which a program can read files, and is refused everything else. Files are read as they
are when they are opened.

* `OpenFile.readEach`: reading lines, numbers, or so many bytes;
* `System.isolated`: the system.
-/

namespace Stencil.Lua

/-- A number as a datum. -/
def Datum.ofNumeral : Numeral → Datum
  | .int i => .int i
  | .float f => .float f

namespace OpenFile

/-- The bytes that are still to be read. -/
def rest (f : OpenFile) : List UInt8 :=
  (f.content.extract f.position f.content.size).data.toList

/-- The file with so many more bytes read. -/
def skip (f : OpenFile) (n : Nat) : OpenFile :=
  { f with position := min (f.position + n) f.content.size }

/-- The next line. -/
def line (f : OpenFile) (keepEnd : Bool) : Option Datum × OpenFile :=
  let cs := f.rest
  let text := cs.takeWhile (· ≠ 0x0A)
  if cs.isEmpty then (none, f)
  else
    let ended := text.length < cs.length
    let shown := if keepEnd && ended then text ++ [0x0A] else text
    (some (.string shown.toByteArray), f.skip (text.length + if ended then 1 else 0))

/-- The next bytes, at most so many. -/
def take (f : OpenFile) (n : Nat) : Option Datum × OpenFile :=
  if f.content.size ≤ f.position then (none, f)
  else (some (.string (f.content.extract f.position (f.position + n))), f.skip n)

/-- How many bytes at the start are digits with at most one point among them. -/
def numeralLength (digit : UInt8 → Bool) (cs : List UInt8) : Nat :=
  let whole := cs.takeWhile digit
  match cs.drop whole.length with
  | 0x2E :: rest => whole.length + 1 + (rest.takeWhile digit).length
  | _ => whole.length

/-- How many bytes at the start are a sign. -/
def signLength (cs : List UInt8) : Nat :=
  match cs.head? with
  | some 0x2B | some 0x2D => 1
  | _ => 0

/-- The next number. -/
def number (f : OpenFile) : Option Datum × OpenFile :=
  let cs := f.rest
  let blanks := (cs.takeWhile isSpace).length
  let cs := cs.drop blanks
  let sign := signLength cs
  let body := cs.drop sign
  let (isMark, digit, start) : (UInt8 → Bool) × (UInt8 → Bool) × Nat :=
    match body with
    | 0x30 :: x :: _ =>
      if x == 0x78 || x == 0x58 then (fun b => b == 0x70 || b == 0x50, isHexDigit, 2)
      else (fun b => b == 0x65 || b == 0x45, isDigit, 0)
    | _ => (fun b => b == 0x65 || b == 0x45, isDigit, 0)
  let n := start + numeralLength digit (body.drop start)
  let exponent :=
    match body.drop n with
    | b :: rest =>
      if isMark b && 0 < n then
        let s := signLength rest
        1 + s + ((rest.drop s).takeWhile isDigit).length
      else 0
    | [] => 0
  let length := min 200 (sign + n + exponent)
  ((Numeral.read (cs.take length)).map Datum.ofNumeral, f.skip (blanks + length))

/-- Reads one thing. -/
def read (f : OpenFile) : ReadFormat → Option Datum × OpenFile
  | .line keepEnd => f.line keepEnd
  | .all => (some (.string f.rest.toByteArray), f.skip f.content.size)
  | .number => f.number
  | .count n => f.take n

/-- Reads things one after the other, up to the first that is not there. -/
def readEach (f : OpenFile) : List ReadFormat → List Datum × OpenFile
  | [] => ([], f)
  | format :: formats =>
    match f.read format with
    | (none, f) => ([.nil], f)
    | (some v, f) =>
      let (vs, f) := readEach f formats
      (v :: vs, f)

end OpenFile

namespace System

/-- The random number with a number in the sequence of them. -/
def randomBits (n : Nat) : UInt64 :=
  let x := (UInt64.ofNat n + 1) * 0x9E3779B97F4A7C15
  let x := (x ^^^ (x >>> 30)) * 0xBF58476D1CE4E5B9
  let x := (x ^^^ (x >>> 27)) * 0x94D049BB133111EB
  x ^^^ (x >>> 31)

/-- Where the sequence of random numbers stands after requests. -/
def drawn : List Request → Nat
  | [] => 0
  | .plain .mathRandomseed (.int start :: _) :: _ => start.toUInt64.toNat
  | .plain .mathRandom _ :: rest => drawn rest + 1
  | _ :: rest => drawn rest

/-- A random float below one, or a random integer between bounds. -/
def random (bits : UInt64) : List Datum → Datum
  | [.int low, .int high] =>
    .int (low + Int64.ofNat (bits.toNat % ((high.toInt - low.toInt).toNat + 1)))
  | _ => .float ((bits >>> 11).toFloat / 9007199254740992.0)

/-- The reply to a request about the memory. -/
def memoryReply (name : Bytes) : Datum :=
  if name == bytesOf "count" then .float 32.0
  else if name == bytesOf "step" || name == bytesOf "isrunning" then .bool true
  else if name == bytesOf "generational" || name == bytesOf "incremental" then .text "incremental"
  else .int 0

/-- The reply to a request to open the file at a path in a mode: it can only be read. -/
def openReply (files : FileSystem) (path mode : Bytes) : Reply :=
  if mode == bytesOf "r" || mode == bytesOf "rb" then
    match files.find (Utf8.readable path) with
    | .error e => .failed e
    | .ok (_, .file content _) => .opened ⟨content, 0, false, false, false⟩
    | .ok _ => .opened ⟨ByteArray.empty, 0, false, false, false⟩
  else .failed (.os 30)

/-- The reply to a request that is about no open file. -/
def plainReply (asked : List Request) (files : FileSystem) : Builtin → List Datum → Reply
  | .ioOpen, [.string path, .string mode] => openReply files path mode
  | .collectgarbage, .string name :: _ => .results [memoryReply name]
  | .mathRandom, given => .results [random (randomBits (drawn asked)) given]
  | .mathRandomseed, given => .results given
  | .loadfile, _ | .dofile, _ => .results [.text ""]
  | .osTime, [] => .results [.int (Int64.ofNat (files.now / Nat.pow 10 9))]
  | .osClock, _ => .results [.float 0.0]
  | .osDate, _ => .results [.text ""]
  | .osSetlocale, .string name :: _ =>
    .results [if ["", "C", "POSIX"].any fun n => bytesOf n == name then .text "C" else .nil]
  | .osSetlocale, _ => .results [.text "C"]
  | .osExecute, _ | .osGetenv, _ => .results [.nil]
  | .osTmpname, _ => .refused (bytesOf "unable to generate a unique filename")
  | _, _ => .failed (.os 1)

/-- The position of an open file after it went to another one, if there is such a position. -/
def positionAfter (f : OpenFile) (whence : Bytes) (offset : Int64) : Option Nat :=
  let base : Nat :=
    if whence == bytesOf "set" then 0
    else if whence == bytesOf "cur" then f.position
    else f.content.size
  let target := (base : Int) + offset.toInt
  if target < 0 then none else some target.toNat

/-- What comes of a request about an open file. -/
def fileReply (f : OpenFile) : Builtin → List Datum → Reply × OpenFile
  | .fileWrite, _ => if f.writable then (.results [.bool true], f) else (.failed (.os 9), f)
  | .fileSeek, [.string whence, .int offset] =>
    match positionAfter f whence offset with
    | some n => (.results [.int (Int64.ofNat n)], { f with position := n })
    | none => (.failed (.os 22), f)
  | _, _ => (.results [.bool true], f)

/-- A system that lets files be read, and refuses everything else. -/
def isolated : System where
  answer asked files
    | .plain function given => ⟨plainReply asked files function given, default, files, []⟩
    | .file function given _ f =>
      let (reply, f) := fileReply f function given
      ⟨reply, f, files, []⟩
    | .read formats _ f =>
      let (vs, f) := f.readEach formats
      ⟨.results vs, f, files, []⟩
  dump _ _ := none
  undump _ := .error (bytesOf "bad binary format (truncated chunk)")
  address kind place :=
    bytesOf ("0x" ++ Number.hexPadded 14 (0x55d0 * Nat.pow 2 32 + kind * Nat.pow 2 28 + 32 * place))

end System

end Stencil.Lua
