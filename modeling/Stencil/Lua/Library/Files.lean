import Stencil.Lua.Library.Argument
import Stencil.Text.Utf8

/-!
# The library `io`

Opening, reading, writing and closing files. The library checks what it was given; the rest is up to
the system.
-/

namespace Stencil.Lua

namespace Files

open Argument

/-- Raises that a file is closed. -/
def refuseClosed {α : Type} : Run α :=
  Run.complain (bytesOf "attempt to use a closed file")

/-- The file of an argument, closed or not. -/
def anyFile (n : Nat) (vs : List Value) : Run (Nat × OpenFile) := do
  let s ← Run.store
  match value n vs with
  | .object p =>
    match s.object p with
    | .file f => return (p, f)
    | _ => refuseType n "FILE*" vs
  | _ => refuseType n "FILE*" vs

/-- The open file of an argument. -/
def openFile (n : Nat) (vs : List Value) : Run (Nat × OpenFile) := do
  let (p, f) ← anyFile n vs
  if f.closed then refuseClosed else return (p, f)

/-- The format of what is read that an argument spells. -/
def format (n : Nat) (vs : List Value) : Run ReadFormat := do
  match value n vs with
  | .int _ | .float _ => return .count (← integer n vs).toInt.toNat
  | _ =>
    let cs := (← string n vs).data.toList
    let cs := if cs.head? == some 0x2A then cs.drop 1 else cs
    match cs.head? with
    | some 0x6E => return .number
    | some 0x6C => return .line false
    | some 0x4C => return .line true
    | some 0x61 => return .all
    | _ => refuse n (bytesOf "invalid format")

/-- The formats of `count` arguments from an argument on. -/
def formatsFrom (vs : List Value) : Nat → Nat → Run (List ReadFormat)
  | 0, _ => pure []
  | count + 1, n => do
    let f ← format n vs
    let fs ← formatsFrom vs count (n + 1)
    return f :: fs

/-- The formats of the arguments from an argument on; a line if there are none. -/
def formats (n : Nat) (vs : List Value) : Run (List ReadFormat) := do
  match ← formatsFrom vs (vs.length + 1 - n) n with
  | [] => return [.line false]
  | fs => return fs

/-- The file that is used where none is named. -/
def defaultFile (kind : String) (file : Value) : Run (Nat × OpenFile) := do
  let (place, f) ← anyFile 1 [file]
  if f.closed then Run.complain (bytesOf ("default " ++ kind ++ " file is closed"))
  else return (place, f)

/-- Asks the system for something about a file. -/
def use (function : Builtin) (given : List Datum) (place : Nat) (f : OpenFile) :
    Run (List Value) :=
  Run.request ByteArray.empty (.file function given place f)

/-- Reads from a file. -/
def readFrom (place : Nat) (f : OpenFile) (fs : List ReadFormat) : Run (List Value) :=
  Run.request ByteArray.empty (.read fs place f)

/-- Reads from a file, as a method of it. -/
def read (vs : List Value) : Run (List Value) := do
  let (place, f) ← openFile 1 vs
  readFrom place f (← formats 2 vs)

/-- Reads from the file that is read where none is named. -/
def readInput (vs : List Value) : Run (List Value) := do
  let (place, f) ← defaultFile "input" (← Run.store).input
  readFrom place f (← formats 1 vs)

/-- Whether a text is a mode in which files are opened. -/
def isMode (mode : Bytes) : Bool :=
  ["r", "w", "a", "r+", "w+", "a+", "rb", "wb", "ab", "r+b", "w+b", "a+b"].any fun m =>
    bytesOf m == mode

/-- What comes before the message about a path. -/
def subject (path : Bytes) : Bytes :=
  path ++ bytesOf ": "

/-- Opens a file. -/
def openPath (vs : List Value) : Run (List Value) := do
  let path ← string 1 vs
  let mode ← stringOr 2 vs (bytesOf "r")
  require (isMode mode) 2 "invalid mode"
  Run.request (subject path) (.plain .ioOpen [.string path, .string mode])

/-- Opens a file that must be there. -/
def openOrComplain (path : Bytes) (mode : String) : Run Value := do
  match ← Run.ask (.plain .ioOpen [.string path, .text mode]) with
  | .opened f => return .object (← Run.modifyGet fun s => s.newObject (.file f))
  | .failed e =>
    Run.complain (bytesOf "cannot open file '" ++ path ++ bytesOf ("' (" ++ e.reason ++ ")"))
  | .refused message => Run.complain message
  | .results vs => return .ofDatum (vs.headD .nil)
  | .never => Run.stall

/-- Runs another program, and opens a file that leads to it or from it. -/
def openProgram (vs : List Value) : Run (List Value) := do
  let command ← string 1 vs
  let mode ← stringOr 2 vs (bytesOf "r")
  require (["r", "w"].any fun m => bytesOf m == mode) 2 "invalid mode"
  Run.request (subject command) (.plain .ioPopen [.string command, .string mode])

/-- Opens a file that is removed at the end of the program. -/
def openTemporary (_ : List Value) : Run (List Value) :=
  Run.request ByteArray.empty (.plain .ioTmpfile [])

/-- An iterator over what is read from a file. -/
def iterator (place : Nat) (fs : List ReadFormat) (closing : Bool) : Run Value := do
  let n ← Run.modifyGet fun s => s.newNative (.readLines place fs closing)
  return .native n

/-- An iterator over a file, as a method of it. -/
def lines (vs : List Value) : Run (List Value) := do
  let (place, _) ← openFile 1 vs
  return [← iterator place (← formats 2 vs) false]

/-- An iterator over the file at a path, which is closed at its end. -/
def linesOf (vs : List Value) : Run (List Value) := do
  if isAbsent 1 vs then
    let (place, _) ← openFile 1 [(← Run.store).input]
    return [← iterator place (← formats 2 vs) false]
  else
    let file ← openOrComplain (← string 1 vs) "r"
    let (place, _) ← anyFile 1 [file]
    let f ← iterator place (← formats 2 vs) true
    return [f, .nil, .nil, file]

/-- Closes a file. The three that a program starts with stay open. -/
def closeAt (place : Nat) (f : OpenFile) : Run (List Value) := do
  if f.standard then return [.nil, .text "cannot close standard file"]
  else
    let f := { f with closed := true }
    Run.modify fun s => s.setObject place (.file f)
    use .fileClose [] place f

/-- Closes a file, as a method of it. -/
def close (vs : List Value) : Run (List Value) := do
  let (place, f) ← openFile 1 vs
  closeAt place f

/-- Closes a file, by default the one that is written where none is named. -/
def closeAny (vs : List Value) : Run (List Value) := do
  if vs.isEmpty then close [(← Run.store).outlet] else close vs

/-- Closes a file at the end of its scope, if it is still open. -/
def closeScope (vs : List Value) : Run (List Value) := do
  let (place, f) ← anyFile 1 vs
  if f.closed then return []
  else
    let _ ← closeAt place f
    return []

/-- The next thing that an iterator reads. -/
def linesStep (place : Nat) (fs : List ReadFormat) (closing : Bool) : Run (List Value) := do
  match (← Run.store).object place with
  | .file f =>
    if f.closed then Run.complain (bytesOf "file is already closed")
    else
      let vs ← readFrom place f fs
      match vs with
      | .nil :: message :: _ => Run.complain ((message.toBytes).getD ByteArray.empty)
      | [] | [.nil] =>
        if closing then
          let _ ← closeScope [.object place]
        return []
      | vs => return vs
  | _ => return []

/-- A number or a string as a datum. -/
def written : Value → Datum
  | .int i => .int i
  | .float x => .float x
  | .string b => .string b
  | _ => .nil

/-- Writes so many arguments from one on, up to the first that cannot be written. -/
def writeFrom (file : Value) (vs : List Value) : Nat → Nat → Run (List Value)
  | 0, _ => pure [file]
  | count + 1, n => do
    let _ ← string n vs
    let (place, f) ← anyFile 1 [file]
    let outcome ← use .fileWrite [written (value n vs)] place f
    if (Value.first outcome).truth then writeFrom file vs count (n + 1)
    else
      strings vs count (n + 1)
      return outcome

/-- Writes to a file, as a method of it. -/
def write (vs : List Value) : Run (List Value) := do
  let _ ← openFile 1 vs
  writeFrom (value 1 vs) vs (vs.length - 1) 2

/-- Writes to the file that is written where none is named. -/
def writeOutput (vs : List Value) : Run (List Value) := do
  let file := (← Run.store).outlet
  let _ ← defaultFile "output" file
  writeFrom file vs vs.length 1

/-- Writes out what waits to be written to a file. -/
def flush (vs : List Value) : Run (List Value) := do
  let (place, f) ← openFile 1 vs
  use .fileFlush [] place f

/-- Writes out what waits to be written where no file is named. -/
def flushOutput (_ : List Value) : Run (List Value) := do
  let (place, f) ← defaultFile "output" (← Run.store).outlet
  use .fileFlush [] place f

/-- Sets how a file is buffered. -/
def setvbuf (vs : List Value) : Run (List Value) := do
  let (place, f) ← openFile 1 vs
  let mode ← option 2 ["no", "full", "line"] (← string 2 vs)
  let size ← integerOr 3 vs 0
  use .fileSetvbuf [.string mode, .int size] place f

/-- Goes to a position of a file. -/
def seek (vs : List Value) : Run (List Value) := do
  let (place, f) ← openFile 1 vs
  let whence ← option 2 ["set", "cur", "end"] (← stringOr 2 vs (bytesOf "cur"))
  let offset ← integerOr 3 vs 0
  use .fileSeek [.string whence, .int offset] place f

/-- Whether a value is an open file, a closed one or none. -/
def type (vs : List Value) : Run (List Value) := do
  match ← any 1 vs with
  | .object p =>
    match (← Run.store).object p with
    | .file f => return [.text (if f.closed then "closed file" else "file")]
    | _ => return [.nil]
  | _ => return [.nil]

/-- The text of a file. -/
def text (vs : List Value) : Run (List Value) := do
  let (_, f) ← anyFile 1 vs
  if f.closed then return [.text "file (closed)"]
  else
    return [.string (bytesOf "file (" ++ (← Run.store).identity (value 1 vs) ++ bytesOf ")")]

/-- The file that is read where none is named; another one if it is given. -/
def input (vs : List Value) : Run (List Value) := do
  if isAbsent 1 vs then return [(← Run.store).input]
  else
    let file ←
      match value 1 vs with
      | .object _ => do
        let _ ← anyFile 1 vs
        pure (value 1 vs)
      | _ => do openOrComplain (← string 1 vs) "r"
    Run.modify fun s => { s with input := file }
    return [file]

/-- The file that is written where none is named; another one if it is given. -/
def output (vs : List Value) : Run (List Value) := do
  if isAbsent 1 vs then return [(← Run.store).outlet]
  else
    let file ←
      match value 1 vs with
      | .object _ => do
        let _ ← anyFile 1 vs
        pure (value 1 vs)
      | _ => do openOrComplain (← string 1 vs) "w"
    Run.modify fun s => { s with outlet := file }
    return [file]

end Files

end Stencil.Lua
