import Stencil.Lua.Action
import Stencil.Lua.Parser.Grammar
import Stencil.Text.Utf8

/-!
# Loading chunks

A chunk is the source of a function, with a name that messages show, or the bytes of one.

* `Chunk.shownName`: how a message shows the name of a chunk;
* `Store.load`, `Store.undump`: the function of a chunk, with a value as its `_ENV`;
* `Store.loadFile`: the function of the chunk in a file.
-/

namespace Stencil.Lua

namespace Chunk

/-- The bytes of the first line. -/
def firstLine (name : Bytes) : Bytes :=
  (name.data.toList.takeWhile (· ≠ 0x0A)).toByteArray

/-- How a message shows the name of a chunk. After `=` comes the name itself, cut at the end; after
`@` a path, cut at the start; anything else is source, of which the first line is shown. At most 59
bytes are shown. -/
def shownName (name : Bytes) : Bytes :=
  let dots := bytesOf "..."
  match name.data.toList.head? with
  | some 0x3D => name.extract 1 60
  | some 0x40 =>
    if name.size ≤ 60 then name.extract 1 name.size
    else dots ++ name.extract (name.size - 56) name.size
  | _ =>
    let line := firstLine name
    let text :=
      if name.size < 45 && line.size == name.size then name else line.extract 0 45 ++ dots
    bytesOf "[string \"" ++ text ++ bytesOf "\"]"

/-- The source of a file without a byte order mark and without a first line that starts with a
hash sign. -/
def ofFile (content : Bytes) : Bytes :=
  let content :=
    if content.extract 0 3 == [0xEF, 0xBB, 0xBF].toByteArray then content.extract 3 content.size
    else content
  match content.data.toList with
  | 0x23 :: rest => (rest.dropWhile (· ≠ 0x0A)).toByteArray
  | _ => content

/-- Whether a chunk is no source, but the bytes of a function. -/
def isBinary (chunk : Bytes) : Bool :=
  chunk.data.toList.head? == some 0x1B

end Chunk

namespace Store

/-- The function of a chunk, with a value as its `_ENV`, or why there is none. -/
def load (s : Store) (name source : Bytes) (env : Value) : Except Malformed (Value × Store) :=
  match Chunk.parse (Chunk.shownName name) source.data.toList with
  | .error e => .error e
  | .ok f =>
    let (cell, s) := s.newCell env
    let (place, s) := s.newClosure ⟨f, [cell]⟩
    .ok (.closure place, s)

/-- The function of the bytes of a function, with a value as its `_ENV`, or why there is none. The
other variables around it are new. -/
def undump (s : Store) (bytes : Bytes) (env : Value) : Except Malformed (Value × Store) :=
  match s.system.undump bytes with
  | .error message => .error ⟨message, false⟩
  | .ok u =>
    let first := s.cells.size
    let s := { s with cells := s.cells ++ Array.replicate u.outer Value.nil }
    let s := s.setCell (first + u.environment) env
    let (place, s) := s.newClosure ⟨u.proto, List.range' first u.outer⟩
    .ok (.closure place, s)

/-- The function of a chunk that is source or the bytes of a function. -/
def loadChunk (s : Store) (name chunk : Bytes) (env : Value) : Except Malformed (Value × Store) :=
  if Chunk.isBinary chunk then s.undump chunk env else s.load name chunk env

/-- The chunk in a file, or why there is none. -/
def chunkOfFile (s : Store) (path : Bytes) : Except Malformed Bytes :=
  match s.files.readBytes (Utf8.readable path) with
  | .ok content => .ok (Chunk.ofFile content)
  | .error e =>
    let verb := if e == .isADirectory then "read" else "open"
    .error ⟨bytesOf ("cannot " ++ verb ++ " ") ++ path ++ bytesOf (": " ++ e.reason), false⟩

/-- How a chunk in a file is named. -/
def fileChunkName (path : Bytes) : Bytes :=
  bytesOf "@" ++ path

/-- The function of a file, with a value as its `_ENV`, or why there is none. -/
def loadFile (s : Store) (path : Bytes) (env : Value) : Except Malformed (Value × Store) :=
  match s.chunkOfFile path with
  | .ok chunk => s.loadChunk (fileChunkName path) chunk env
  | .error e => .error e

end Store

end Stencil.Lua
