import Stencil.Lua.Library.Argument
import Stencil.Text.Utf8
import Stencil.Unit.Template

/-!
# Functions of the engine

What a template finds beside the libraries: functions that write output, and the host value, which
tells where the template stands. An error in one of them reaches the template as an object that
keeps its cause.

* `Engine.write`, `print`: writing output;
* `Engine.host`, `hostIndex`, `hostResolve`: the host value.
-/

namespace Stencil.Lua.Engine

open Argument

/-! ## Errors -/

/-- The trace of a call, of which only the outermost part is kept. -/
def trace : String := "stack traceback:\n\t[C]: in ?"

/-- The bytes up to the first zero. -/
def beforeZero (b : Bytes) : Bytes :=
  if b.data.contains 0 then (b.data.toList.takeWhile (· ≠ 0)).toByteArray else b

/-- The text of the message of an error, with the trace that follows it. -/
def tracedMessage (message : Bytes) : String :=
  Utf8.readable (beforeZero message) ++ "\n" ++ trace

/-- The error behind a value that was raised. -/
def failureOf (e : Value) : Run ScriptError := do
  let s ← Run.store
  let raised : Run ScriptError := do
    match ← Run.protect (do return [.string (← Run.textOf e)]) none with
    | .ok (.string text :: _) => return .runtime (tracedMessage text)
    | _ => return .runtime (tracedMessage (Run.plainText s e))
  match e with
  | .object p =>
    match s.object p with
    | .failure f => return f
    | _ => raised
  | _ => raised

/-- Raises an error as an object that keeps it. -/
def throw {α : Type} (e : ScriptError) : Run α := do
  let place ← Run.modifyGet fun s => s.newObject (.failure e)
  Run.raise (.object place)

/-- Raises an error of an engine function. -/
def fail {α : Type} (cause : ScriptError) : Run α :=
  throw (.callback trace cause)

/-! ## Conversions -/

/-- The name of the type of a value in messages about conversions. -/
def typeName (s : Store) : Value → String
  | .int _ => "integer"
  | .object p =>
    match s.object p with
    | .failure _ => "error"
    | _ => "userdata"
  | v => v.typeName

/-- The error for an argument that cannot be converted to a text. -/
def textArgument (callee : Option String) (n : Nat) (v : Value) : Run String := do
  let s ← Run.store
  let bad {α : Type} (note : String) : Run α :=
    fail (.badArgument callee n none (.fromSnippet (typeName s v) "String" (some note)))
  match v.toBytes with
  | none => bad "expected string or number"
  | some b =>
    match Utf8.fault? b with
    | some note => bad note
    | none => return Utf8.readable b

/-- The field of a table, which must be a function, or why there is none. -/
def functionField (place : Nat) (name : String) : Run (Except ScriptError Value) := do
  match ← Run.protect (do return [← Run.index 0 none (.table place) (.text name)]) none with
  | .error e => return .error (← failureOf e)
  | .ok found =>
    let f := Value.first found
    if f.isFunction then return .ok f
    else return .error (.fromSnippet (typeName (← Run.store) f) "function" none)

/-- The text of a value by the global function `tostring`, or why there is none. -/
def globalText (v : Value) : Run (Except ScriptError Bytes) := do
  match ← functionField Store.globals "tostring" with
  | .error e => return .error e
  | .ok f =>
    match ← Run.protect (Run.call f [v] ⟨0, none⟩) none with
    | .error e => return .error (← failureOf e)
    | .ok results =>
      let result := Value.first results
      match result.toBytes with
      | some b => return .ok b
      | none =>
        return .error (.fromSnippet (typeName (← Run.store) result) "string"
          (some "expected string or number"))

/-- The text of an argument of an engine function. -/
def textOf (v : Value) : Run Bytes := do
  match ← globalText v with
  | .ok b => return b
  | .error cause => fail cause

/-! ## Output -/

/-- Writes the text of a value; nil has none. -/
def writeValue (v : Value) : Run Unit := do
  if !v.isNil then
    let b ← textOf v
    Run.modify fun s => s.emit b

/-- Writes the texts of values. -/
def writeValues : List Value → Run Unit
  | [] => pure ()
  | v :: vs => do
    writeValue v
    writeValues vs

/-- Writes the texts of the arguments. -/
def write (vs : List Value) : Run (List Value) := do
  writeValues vs
  return []

/-- Writes the texts of the arguments and ends the line. -/
def writeln (vs : List Value) : Run (List Value) := do
  writeValues vs
  Run.modify fun s => s.emit (bytesOf "\n")
  return []

/-- Writes the texts of values, each after a tab. -/
def printRest : List Value → Run Unit
  | [] => pure ()
  | v :: vs => do
    Run.modify fun s => s.emit (bytesOf "\t")
    let b ← textOf v
    Run.modify fun s => s.emit b
    printRest vs

/-- Writes the texts of the arguments, nil too, between tabs, and ends the line. -/
def print (vs : List Value) : Run (List Value) := do
  match vs with
  | [] => pure ()
  | v :: vs =>
    let b ← textOf v
    Run.modify fun s => s.emit b
    printRest vs
  Run.modify fun s => s.emit (bytesOf "\n")
  return []

/-! ## The host value -/

/-- The name of the type of host values. -/
def hostTypeName : String := "HostContext"

/-- The host value of a template. -/
def host (vs : List Value) : Run (List Value) := do
  let path ← textArgument none 1 (value 1 vs)
  let place ← Run.modifyGet fun s => s.newObject (.context path)
  return [.object place]

/-- The template of an argument that is a host value. -/
def hostArgument (callee : Option String) (vs : List Value) : Run String := do
  let s ← Run.store
  let bad {α : Type} (cause : ScriptError) : Run α :=
    fail (.badArgument callee 1 (some "self") cause)
  match vs with
  | [] => bad (.fromSnippet "missing argument" "userdata" none)
  | .object p :: _ =>
    match s.object p with
    | .context path => return path
    | .failure _ =>
      bad (.fromSnippet "error" "userdata" (some ("expected userdata of type '" ++ hostTypeName ++ "'")))
    | .file _ => bad .objectMismatch
  | v :: _ =>
    bad (.fromSnippet (typeName s v) "userdata"
      (some ("expected userdata of type '" ++ hostTypeName ++ "'")))

/-- A field of the host value. -/
def hostIndex (vs : List Value) : Run (List Value) := do
  let path ← hostArgument none vs
  match value 2 vs with
  | .string b =>
    match Utf8.readable b with
    | "template_file" => return [.text path]
    | "template_dir" => return [.text (Host.directory path)]
    | "resolve_path" => return [.builtin .hostResolve]
    | _ => return [.nil]
  | _ => return [.nil]

/-- A path read from the directory of the template. -/
def hostResolve (vs : List Value) : Run (List Value) := do
  let callee := some (hostTypeName ++ ".resolve_path")
  let path ← hostArgument callee vs
  let rel ← textArgument callee 2 (value 2 vs)
  return [.text (Host.resolve path rel)]

/-- The text of the host value. -/
def hostText (vs : List Value) : Run (List Value) := do
  return [.text ("Host(" ++ (← hostArgument none vs) ++ ")")]

/-- The text of an error of the engine. -/
def failureText (vs : List Value) : Run (List Value) := do
  match value 1 vs with
  | .object p =>
    match (← Run.store).object p with
    | .failure e => return [.text e.text]
    | _ => return [.text ""]
  | _ => return [.text ""]

/-- Refuses to load packages that are not written in Lua. -/
def loadlib (_ : List Value) : Run (List Value) :=
  fail (.safety "package.loadlib is disabled in safe mode")

end Stencil.Lua.Engine
