import Stencil.Lua.Library.Argument
import Stencil.Lua.Loading

/-!
# Basic functions

The functions of the global table that belong to no library: types, metatables, errors, walks over
tables, numbers and the loading of chunks.
-/

namespace Stencil.Lua.Basic

open Argument

/-! ## Errors -/

/-- Raises an error; a message gets the position of the function at a level in front. -/
def error (vs : List Value) : Run (List Value) := do
  let level ← integerOr 2 vs 1
  match value 1 vs with
  | .string message =>
    if 0 < level then
      let i ← Run.inspect level.toInt.toNat 0
      Run.raise (.string (i.position ++ message))
    else Run.raise (.string message)
  | e => Run.raise e

/-- Raises an error if a value does not count as true. -/
def assert (vs : List Value) : Run (List Value) := do
  if (← any 1 vs).truth then return vs
  else
    match if vs.length < 2 then .text "assertion failed!" else value 2 vs with
    | .string message => Run.complain message
    | e => Run.raise e

/-- The results of a call whose errors end here, after whether it ended without one. -/
def outcome : Except Value (List Value) → List Value
  | .ok vs => .bool true :: vs
  | .error e => [.bool false, e]

/-- Calls a function; tells whether it ended without an error. -/
def pcall (vs : List Value) : Run (List Value) := do
  match vs with
  | [] => Run.raise (.text "not enough arguments to pcall")
  | f :: args => return outcome (← Run.protect (Run.call f args ⟨0, none⟩) none)

/-- Calls a function with a handler for its errors; tells whether it ended without one. -/
def xpcall (vs : List Value) : Run (List Value) := do
  match vs with
  | f :: handler :: args =>
    return outcome (← Run.protect (Run.call f args ⟨0, none⟩) (some handler))
  | _ => Run.raise (.text "not enough arguments to xpcall")

/-! ## Types and metatables -/

/-- The name of the type of a value. -/
def type (vs : List Value) : Run (List Value) := do
  return [.text (← any 1 vs).typeName]

/-- The text of a value. -/
def tostring (vs : List Value) : Run (List Value) := do
  return [.string (← Run.textOf (← any 1 vs))]

/-- The metatable of a value, or what it gives instead of itself. -/
def getmetatable (vs : List Value) : Run (List Value) := do
  let v ← any 1 vs
  let s ← Run.store
  match s.metatable v with
  | none => return [.nil]
  | some m =>
    match s.metamethod v "__metatable" with
    | .nil => return [.table m]
    | shown => return [shown]

/-- Sets the metatable of a table. -/
def setmetatable (vs : List Value) : Run (List Value) := do
  let place ← table 1 vs
  let set (m : Option Nat) : Run (List Value) := do
    if !((← Run.store).metamethod (.table place) "__metatable").isNil then
      Run.complain (bytesOf "cannot change a protected metatable")
    else
      Run.modify fun s => s.modifyTable place fun t => { t with metatable := m }
      return [.table place]
  if vs.length < 2 then refuseType 2 "nil or table" vs
  else
    match value 2 vs with
    | .nil => set none
    | .table m => set (some m)
    | _ => refuseType 2 "nil or table" vs

/-- Whether two values are equal without metamethods. -/
def rawequal (vs : List Value) : Run (List Value) := do
  let a ← any 1 vs
  let b ← any 2 vs
  return [.bool (a.rawEqual b)]

/-- The length of a table or string without metamethods. -/
def rawlen (vs : List Value) : Run (List Value) := do
  match value 1 vs with
  | .table p => return [.int (Int64.ofNat ((← Run.store).table p).border)]
  | .string b => return [.int (Int64.ofNat b.size)]
  | _ => refuseType 1 "table or string" vs

/-- The value of a field without metamethods. -/
def rawget (vs : List Value) : Run (List Value) := do
  let place ← table 1 vs
  let k ← any 2 vs
  match Key.ofValue k with
  | some k => return [(← Run.store).rawGet place k]
  | none => return [.nil]

/-- Sets the value of a field without metamethods. -/
def rawset (vs : List Value) : Run (List Value) := do
  let place ← table 1 vs
  let k ← any 2 vs
  let v ← any 3 vs
  Run.rawSetAt 0 place k v
  return [.table place]

/-! ## Walks -/

/-- The key after a key, with its value. -/
def next (vs : List Value) : Run (List Value) := do
  let place ← table 1 vs
  let s ← Run.store
  let refused : Run (List Value) := Run.fault 0 (bytesOf "invalid key to 'next'")
  let after (k : Option Key) : Run (List Value) :=
    match (s.table place).next? k with
    | .ok (some (k, v)) => pure [k.toValue, v]
    | .ok none => pure [.nil]
    | .error () => refused
  match value 2 vs with
  | .nil => after none
  | k =>
    match Key.ofValue k with
    | some k => after (some k)
    | none => refused

/-- A walk over a table. -/
def pairs (vs : List Value) : Run (List Value) := do
  let v ← any 1 vs
  match (← Run.store).metamethod v "__pairs" with
  | .nil => return [.builtin .next, v, .nil]
  | handler =>
    let results ← Run.call handler [v] ⟨0, none⟩
    return [value 1 results, value 2 results, value 3 results]

/-- A walk over a sequence. -/
def ipairs (vs : List Value) : Run (List Value) := do
  return [.builtin .ipairsStep, ← any 1 vs, .int 0]

/-- The next item of a sequence. -/
def ipairsStep (vs : List Value) : Run (List Value) := do
  let i := (← integer 2 vs) + 1
  match ← Run.index 0 none (value 1 vs) (.int i) with
  | .nil => return [.nil]
  | v => return [.int i, v]

/-- The arguments from an argument on, or how many there are. -/
def select (vs : List Value) : Run (List Value) := do
  let count : Int := vs.length - 1
  match value 1 vs with
  | .string b =>
    if b.data.toList.head? == some 0x23 then return [.int (Int64.ofInt count)]
  | _ => pure ()
  let n := (← integer 1 vs).toInt
  let first := if n < 0 then count + 1 + n else n
  require (1 ≤ first) 1 "index out of range"
  return vs.drop first.toNat

/-! ## Numbers -/

/-- The value of an ASCII letter or digit as a digit. -/
def digitValue (b : UInt8) : Option Nat :=
  if isDigit b then some (b.toNat - 0x30)
  else if 0x61 ≤ b && b ≤ 0x7A then some (b.toNat - 0x61 + 10)
  else if 0x41 ≤ b && b ≤ 0x5A then some (b.toNat - 0x41 + 10)
  else none

/-- The number that digits of a base spell, after the number read so far. -/
def readDigits (base : Nat) : List UInt8 → Nat → Option Nat
  | [], n => some n
  | b :: rest, n =>
    match digitValue b with
    | some d => if d < base then readDigits base rest (n * base + d) else none
    | none => none

/-- The integer that a text spells in a base, with blanks around it allowed, and a sign. -/
def readInteger (base : Nat) (cs : List UInt8) : Option Int64 :=
  let cs := ((cs.dropWhile isSpace).reverse.dropWhile isSpace).reverse
  let (negative, cs) :=
    match cs with
    | 0x2D :: rest => (true, rest)
    | 0x2B :: rest => (false, rest)
    | cs => (false, cs)
  if cs.isEmpty then none
  else
    (readDigits base cs 0).map fun n =>
      let i := Int64.ofNat n
      if negative then -i else i

/-- The number that a value is or spells, in a base if one is given. -/
def tonumber (vs : List Value) : Run (List Value) := do
  if isAbsent 2 vs then
    match (← any 1 vs).toNumber with
    | some n => return [.ofNumeral n]
    | none => return [.nil]
  else
    let base ← integer 2 vs
    match value 1 vs with
    | .string b =>
      require (2 ≤ base && base ≤ 36) 2 "base out of range"
      match readInteger base.toInt.toNat b.data.toList with
      | some i => return [.int i]
      | none => return [.nil]
    | _ => refuseType 1 "string" vs

/-! ## Chunks -/

/-- The results of loading a chunk: its function, or nil and the reason why there is none. -/
def loaded (load : Store → Except Malformed (Value × Store)) : Run (List Value) := do
  match load (← Run.store) with
  | .ok (f, s) =>
    Run.modify fun _ => s
    return [f]
  | .error e => return [.nil, .string e.message]

/-- The value that a loaded chunk has as its `_ENV`. -/
def environment (n : Nat) (vs : List Value) : Value :=
  if vs.length < n then .table Store.globals else value n vs

/-- The pieces of a chunk that a function gives, one after the other, up to `fuel` of them. -/
def readPieces (reader : Value) : Nat → Bytes → Run Bytes
  | 0, _ => Run.raise (.text "not enough memory")
  | fuel + 1, all => do
    match ← Run.callOne reader [] ⟨0, none⟩ with
    | .nil => return all
    | v =>
      match v.toBytes with
      | some b => if b.size == 0 then return all else readPieces reader fuel (all ++ b)
      | none => Run.complain (bytesOf "reader function must return a string")

/-- Why a chunk of some kind is not loaded in a mode, if it is not. -/
def modeFault (chunk mode : Bytes) : Option Bytes :=
  let refused (kind : String) : Bytes :=
    bytesOf ("attempt to load a " ++ kind ++ " chunk (mode is '") ++ mode ++ bytesOf "')"
  if Chunk.isBinary chunk then
    if mode.data.contains 0x62 then none else some (refused "binary")
  else if mode.data.contains 0x74 then none
  else some (refused "text")

/-- Loads a chunk that is in memory. -/
def loadSource (chunk name mode : Bytes) (env : Value) : Run (List Value) :=
  match modeFault chunk mode with
  | some reason => pure [.nil, .string reason]
  | none => loaded fun s => s.loadChunk name chunk env

/-- The function of a chunk in a string, or in the pieces that a function gives. -/
def load (vs : List Value) : Run (List Value) := do
  let mode ← stringOr 3 vs (bytesOf "bt")
  let env := environment 4 vs
  match (value 1 vs).toBytes with
  | some source =>
    let name ← stringOr 2 vs source
    loadSource source name mode env
  | none =>
    let name ← stringOr 2 vs (bytesOf "=(load)")
    let reader ← function 1 vs
    let pieces ← Run.protect
      (do return [.string (← readPieces reader (Nat.pow 2 40) ByteArray.empty)]) none
    match pieces with
    | .ok [.string source] => loadSource source name mode env
    | .ok _ => return [.nil]
    | .error e => return [.nil, e]

/-- The chunk that the system gives where no file is named. -/
def standardChunk (function : Builtin) : Run Bytes := do
  let found ← Run.request ByteArray.empty (.plain function [])
  return (Value.first found).toBytes.getD ByteArray.empty

/-- The function of a file. -/
def loadfile (vs : List Value) : Run (List Value) := do
  let path ← stringOr 1 vs ByteArray.empty
  let mode ← stringOr 2 vs (bytesOf "bt")
  let env := environment 3 vs
  if isAbsent 1 vs then loadSource (← standardChunk .loadfile) (bytesOf "=stdin") mode env
  else
    match (← Run.store).chunkOfFile path with
    | .ok chunk => loadSource chunk (Store.fileChunkName path) mode env
    | .error e => return [.nil, .string e.message]

/-- The results of the function of a chunk. -/
def perform (load : Store → Except Malformed (Value × Store)) : Run (List Value) := do
  match load (← Run.store) with
  | .ok (f, s) =>
    Run.modify fun _ => s
    Run.call f [] ⟨0, none⟩
  | .error e => Run.raise (.string e.message)

/-- The results of the function of a file. -/
def dofile (vs : List Value) : Run (List Value) := do
  let path ← stringOr 1 vs ByteArray.empty
  if isAbsent 1 vs then
    let chunk ← standardChunk .dofile
    perform fun s => s.loadChunk (bytesOf "=stdin") chunk (.table Store.globals)
  else perform fun s => s.loadFile path (.table Store.globals)

/-! ## Others -/

/-- Warnings, which are not shown. -/
def warn (vs : List Value) : Run (List Value) := do
  let _ ← string 1 vs
  strings vs (vs.length - 1) 2
  return []

/-- The options of requests to the memory management. -/
def memoryOptions : List String :=
  ["stop", "restart", "collect", "count", "step", "setpause", "setstepmul", "isrunning",
    "generational", "incremental"]

/-- Requests to the memory management. -/
def collectgarbage (vs : List Value) : Run (List Value) := do
  let name ← option 1 memoryOptions (← stringOr 1 vs (bytesOf "collect"))
  let amount ← integerOr 2 vs 0
  Run.request ByteArray.empty (.plain .collectgarbage [.string name, .int amount])

end Stencil.Lua.Basic
