import Stencil.Batch.Language
import Stencil.Lua.Isolated
import Stencil.Lua.Machine
import Stencil.Lua.Quote

/-!
# Lua as a snippet language

A unit runs in a state of its own: a new store, with a path on which packages next to the template
are found first. Its environment is made by a program: names that the unit does not set itself are
looked up among the globals, and then in the tables that it imports; setting a name never changes
those.

* `Session.resolveImport`: the table of an imported namespace;
* `Session.unitEnvironment`: the environment of a unit;
* `compile`, `run`: a unit made ready, and run to its end;
* `languageOn`, `language`: the snippet language.
-/

namespace Stencil.Lua

/-- The error of a source that is refused. -/
def Malformed.toError (e : Malformed) : ScriptError :=
  let text := Utf8.readable e.message
  if e.tooDeep then .runtime text else .malformed text

/-- A store with the coroutines that were made in it. Coroutine 0 is the main one. -/
structure Session where
  store : Store
  coroutines : Array Coroutine
  deriving Inhabited

namespace Session

/-- How many steps a part of a program may take, by the size of the program. -/
def budget (size : Nat) : Nat :=
  Nat.pow 2 42 + 1000 * size

/-- Runs a part of a program in a coroutine. -/
def runIn (t : Session) (thread : Nat) (yields : Bool) (size : Nat) (r : Run (List Value)) :
    Except Value (List Value) × Session :=
  let m : Machine := ⟨thread, .base yields 3, [], [], t.coroutines⟩
  match m.run (budget size) (r.toAction t.store) with
  | some (outcome, coroutines, s) => (outcome, ⟨s, coroutines⟩)
  | none => (.error (.text "not enough memory"), t)

/-- Runs a part of a program in the main coroutine. -/
def runMain (t : Session) (r : Run (List Value)) : Except Value (List Value) × Session :=
  t.runIn 0 false 0 r

/-- The error behind a value that was raised. -/
def failure (t : Session) (e : Value) : ScriptError :=
  let raised : ScriptError :=
    match t.runMain (do return [.string (← Run.textOf e)]) with
    | (.ok (.string text :: _), _) => .runtime (Engine.tracedMessage text)
    | _ => .runtime (Engine.tracedMessage (Run.plainText t.store e))
  match e with
  | .object p =>
    match t.store.object p with
    | .failure f => f
    | _ => raised
  | _ => raised

/-- A new session for the template at a path, on a system. Packages are looked for in the directory
of the template first, if it has one. -/
def start (system : System) (files : FileSystem) (path : String) : Session :=
  let s := Store.initial system files
  let dir := Host.directory path
  let s :=
    if dir.isEmpty then s
    else
      s.rawSet Store.package (.text "path")
        (.text (dir ++ "/?.lua;" ++ dir ++ "/?/init.lua;" ++ Packages.defaultPath))
  ⟨s, #[.active]⟩

/-! ## Imports -/

/-- The value that the parts of a dotted name lead to; nil behind a value that is no table. -/
def follow : Value → List String → Run Value
  | v, [] => pure v
  | .table p, part :: rest => do
    let v ← Run.index 0 none (.table p) (.text part)
    follow v rest
  | _, _ :: rest => follow .nil rest

/-- The value that `require` gives for a namespace. -/
def requireNamespace (ns : String) : Run (List Value) := do
  match ← Engine.functionField Store.globals "require" with
  | .ok f => Run.call f [.text ns] ⟨0, none⟩
  | .error e => Engine.throw e

/-- The table of an imported namespace: the one that its parts lead to among the globals, or else
the one that `require` gives. -/
def resolveImport (t : Session) (ns : String) : Except CompileError (Nat × Session) :=
  let unresolved (cause : Option ScriptError) : Except CompileError (Nat × Session) :=
    .error (.unresolvedImport ns (cause.map .script))
  match t.runMain (do return [← follow (.table Store.globals) (Text.pieces '.' ns)]) with
  | (.error e, t) => unresolved (some (t.failure e))
  | (.ok (.table p :: _), t) => .ok (p, t)
  | (.ok _, t) =>
    match t.runMain (requireNamespace ns) with
    | (.error e, t) => unresolved (some (t.failure e))
    | (.ok (.table p :: _), t) => .ok (p, t)
    | (.ok _, _) => unresolved none

/-- The tables of imported namespaces, up to the first that there is none of. -/
def resolveImports (t : Session) : List String → Except CompileError (List Nat × Session)
  | [] => .ok ([], t)
  | ns :: rest =>
    match t.resolveImport ns with
    | .error e => .error e
    | .ok (p, t) =>
      match resolveImports t rest with
      | .error e => .error e
      | .ok (ps, t) => .ok (p :: ps, t)

/-! ## Environments -/

/-- The program that makes the environment of a unit: a new table, behind which stand the globals and
then the imported tables. -/
def environmentSource : String :=
  "\nlocal imports, globals = ...\n" ++
  "return setmetatable(\x7b\x7d, \x7b\n" ++
  "  __index = function(_, key)\n" ++
  "    local value = globals[key]\n" ++
  "    if value ~= nil then\n" ++
  "      return value\n" ++
  "    end\n" ++
  "    for i = 1, #imports do\n" ++
  "      value = imports[i][key]\n" ++
  "      if value ~= nil then\n" ++
  "        return value\n" ++
  "      end\n" ++
  "    end\n" ++
  "    return nil\n" ++
  "  end,\n" ++
  "\x7d)\n"

/-- The environment of a unit: the table that the program gives for the list of imported tables and
the globals. -/
def unitEnvironment (t : Session) (imports : List Nat) : Except ScriptError (Nat × Session) :=
  let (list, s) := t.store.newTable (Table.ofList (imports.map .table) 0)
  match s.load (bytesOf "=t4 environment") (bytesOf environmentSource) (.table Store.globals) with
  | .error e => .error e.toError
  | .ok (f, s) =>
    match runMain ⟨s, t.coroutines⟩ (Run.call f [.table list, .table Store.globals] ⟨0, none⟩) with
    | (.error e, t) => .error (t.failure e)
    | (.ok results, t) =>
      match Value.first results with
      | .table p => .ok (p, t)
      | v => .error (.fromSnippet (Engine.typeName t.store v) "table" none)

end Session

/-! ## Units -/

/-- A unit that is ready to run. -/
structure Program where
  session : Session
  function : Value
  size : Nat
  deriving Inhabited

/-- The name of the chunk of the template at a path. It cannot have a zero byte in it. -/
def unitName (path : String) : Except ScriptError Bytes :=
  let name := bytesOf ("=generated:" ++ path)
  match name.data.toList.findIdx? (· == 0) with
  | some i =>
    .error (.runtime ("invalid name: nul byte found in provided data at position: " ++ toString i))
  | none => .ok name

/-- Compiles the unit of the template at a path, on a system. -/
def compile (system : System) (files : FileSystem) (path : String) (unit : CompilationUnit) :
    Except ExecutionError Program :=
  match (Session.start system files path).resolveImports unit.imports with
  | .error e => .error (.compile e)
  | .ok (imports, t) =>
    match t.unitEnvironment imports with
    | .error e => .error (.setup (.script e))
    | .ok (env, t) =>
      match unitName path with
      | .error e => .error (.compile (.rejected (.script e)))
      | .ok name =>
        match t.store.load name (bytesOf unit.source) (.table env) with
        | .error e => .error (.compile (.rejected (.script e.toError)))
        | .ok (f, s) => .ok ⟨⟨s, t.coroutines⟩, f, unit.source.utf8ByteSize⟩

/-- The text of a value that a unit returned. -/
def returnedText (v : Value) : Run (List Value) := do
  match ← Engine.globalText v with
  | .ok b => return [.string b]
  | .error e => Engine.throw e

/-- Runs a unit to its end, in a coroutine, and gives everything it wrote, with the text of the
first value that it returned, unless that is nil. -/
def run (p : Program) : Except ExecutionError ByteArray :=
  let t := { p.session with coroutines := p.session.coroutines.push .active }
  let thread := p.session.coroutines.size
  match t.runIn thread true p.size (Run.call p.function [] ⟨0, none⟩) with
  | (.error e, t) => .error (.runtime (.script (t.failure e)))
  | (.ok results, t) =>
    match Value.first results with
    | .nil => .ok t.store.output
    | v =>
      match t.runMain (returnedText v) with
      | (.error e, t) => .error (.runtime (.script (t.failure e)))
      | (.ok rs, t) =>
        match rs with
        | .string b :: _ => .ok (t.store.output ++ b)
        | _ => .ok t.store.output

/-- Lua as a snippet language, on a system. What its programs do to files is not part of it. -/
def languageOn (system : System) : Language where
  dialect := dialect
  Program := Program
  compile := compile system
  run := run

/-- Lua as a snippet language, on a system that only lets files be read. -/
def language : Language :=
  languageOn .isolated

end Stencil.Lua
