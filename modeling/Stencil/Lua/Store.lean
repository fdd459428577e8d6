import Stencil.Failure.Error
import Stencil.Lua.Table

/-!
# The store

Everything a Lua program can change: its variables, tables, functions and host objects, and the
text it wrote. A value that has an identity is a place in the store; places are never given back.

* `Store.table`, `modifyTable`, `newTable`, and the like: reading and changing places;
* `Store.metamethod`: the field of a value's metatable;
* `Store.typeName`: the name of a value's type in messages.
-/

namespace Stencil.Lua

/-- A function written in Lua: its text, and the places of the variables it can see, the innermost
first. -/
structure Closure where
  proto : Proto
  env : List Nat
  deriving Inhabited

/-- A library function with a state of its own. -/
inductive Native where
  /-- Finds the next match of a pattern from a position on; a match may not end where the last
  one did. -/
  | matches (subject pattern : Bytes) (position : Nat) (lastEnd : Option Nat)
  /-- Resumes a coroutine. -/
  | wrapped (thread : Nat)
  /-- Reads from a file; `closing` if the file is closed at its end. -/
  | readLines (file : Nat) (formats : List ReadFormat) (closing : Bool)
  deriving Inhabited

/-- An object of the host. -/
inductive HostObject where
  /-- The host value of a template. -/
  | context (path : String)
  /-- An error that an engine function raised. -/
  | failure (e : ScriptError)
  | file (f : OpenFile)
  deriving Inhabited

/-- The variables, tables, functions and host objects of a Lua program, the text it wrote, the files
that there are, and the system that it runs on. -/
structure Store where
  cells : Array Value
  tables : Array Table
  closures : Array Closure
  natives : Array Native
  objects : Array HostObject
  output : ByteArray
  files : FileSystem
  /-- The files that are read and written where no file is named. -/
  input : Value
  outlet : Value
  system : System
  /-- What the system was asked, the last first. -/
  asked : List Request
  deriving Inhabited

namespace Store

/-! ## Tables that every store has -/

/-- The place of the table of globals. -/
def globals : Nat := 0

/-- The place of the table of loaded packages. -/
def loaded : Nat := 1

/-- The place of the metatable of strings. -/
def stringMeta : Nat := 2

/-- The place of the metatable of host values. -/
def contextMeta : Nat := 3

/-- The place of the metatable of errors of the engine. -/
def failureMeta : Nat := 4

/-- The place of the metatable of files. -/
def fileMeta : Nat := 5

/-- The place of the table of the library `package`. -/
def package : Nat := 6

/-- The place of the table of loaders of packages. -/
def preload : Nat := 7

/-- The place of the list of searchers of packages. -/
def searchers : Nat := 8

/-! ## Places -/

/-- The value of a variable. -/
def cell (s : Store) (place : Nat) : Value :=
  s.cells.getD place .nil

/-- Sets the value of a variable. -/
def setCell (s : Store) (place : Nat) (v : Value) : Store :=
  { s with cells := s.cells.setIfInBounds place v }

/-- A new variable. -/
def newCell (s : Store) (v : Value) : Nat × Store :=
  (s.cells.size, { s with cells := s.cells.push v })

/-- The table at a place. -/
def table (s : Store) (place : Nat) : Table :=
  s.tables.getD place (Table.empty 0 0)

/-- Changes the table at a place. -/
def modifyTable (s : Store) (place : Nat) (f : Table → Table) : Store :=
  { s with tables := s.tables.modify place f }

/-- A new table. -/
def newTable (s : Store) (t : Table) : Nat × Store :=
  (s.tables.size, { s with tables := s.tables.push t })

/-- The value of a field of a table. -/
def rawGet (s : Store) (place : Nat) (k : Key) : Value :=
  (s.table place).get k

/-- Sets the value of a field of a table. -/
def rawSet (s : Store) (place : Nat) (k : Key) (v : Value) : Store :=
  s.modifyTable place fun t => t.set k v

/-- The function at a place. -/
def closure (s : Store) (place : Nat) : Closure :=
  s.closures.getD place default

/-- A new function. -/
def newClosure (s : Store) (c : Closure) : Nat × Store :=
  (s.closures.size, { s with closures := s.closures.push c })

/-- The library function at a place. -/
def native (s : Store) (place : Nat) : Native :=
  s.natives.getD place default

/-- Changes the state of the library function at a place. -/
def setNative (s : Store) (place : Nat) (n : Native) : Store :=
  { s with natives := s.natives.setIfInBounds place n }

/-- A new library function with a state. -/
def newNative (s : Store) (n : Native) : Nat × Store :=
  (s.natives.size, { s with natives := s.natives.push n })

/-- The host object at a place. -/
def object (s : Store) (place : Nat) : HostObject :=
  s.objects.getD place default

/-- Changes the host object at a place. -/
def setObject (s : Store) (place : Nat) (o : HostObject) : Store :=
  { s with objects := s.objects.setIfInBounds place o }

/-- A new host object. -/
def newObject (s : Store) (o : HostObject) : Nat × Store :=
  (s.objects.size, { s with objects := s.objects.push o })

/-- Adds to the text that was written. -/
def emit (s : Store) (text : Bytes) : Store :=
  { s with output := s.output ++ text }

/-! ## Metatables -/

/-- The place of the metatable of a value. -/
def metatable (s : Store) : Value → Option Nat
  | .table p => (s.table p).metatable
  | .string _ => some stringMeta
  | .object p =>
    match s.object p with
    | .context _ => some contextMeta
    | .failure _ => some failureMeta
    | .file _ => some fileMeta
  | _ => none

/-- The field of the metatable of a value; nil if there is none. -/
def metamethod (s : Store) (v : Value) (event : String) : Value :=
  match s.metatable v with
  | none => .nil
  | some m => s.rawGet m (.text event)

/-- The name of the type of a value in messages: tables and host objects may name their own. -/
def typeName (s : Store) (v : Value) : Bytes :=
  match v with
  | .table _ | .object _ =>
    match s.metamethod v "__name" with
    | .string name => name
    | _ => bytesOf v.typeName
  | _ => bytesOf v.typeName

/-- How the identity of a value is shown. -/
def identity (s : Store) : Value → Bytes
  | .table p => s.system.address 1 p
  | .closure p => s.system.address 2 p
  | .builtin b => s.system.address 3 b.ctorIdx
  | .native p => s.system.address 4 p
  | .object p => s.system.address 5 p
  | .thread p => s.system.address 6 p
  | _ => s.system.address 0 0

/-- The text of a value that is shown by its identity. -/
def address (s : Store) (v : Value) : Bytes :=
  s.typeName v ++ bytesOf ": " ++ s.identity v

/-! ## Requests -/

/-- Asks the system. -/
def ask (s : Store) (request : Request) : Answer × Store :=
  let a := s.system.answer s.asked s.files request
  let s := { s with files := a.files, asked := request :: s.asked }
  match request.place? with
  | some place => (a, s.setObject place (.file a.file))
  | none => (a, s)

end Store

end Stencil.Lua
