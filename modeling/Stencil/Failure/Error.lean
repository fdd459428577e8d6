import Stencil.Failure.IoError
import Stencil.Markup.Parser

/-!
# Errors and their causes

What can go wrong when a template is transformed. Every error keeps the error that led to it, so a
failure can be followed from the file it stopped to its root.

* `ErrorValue`: any error, with the errors of each stage and of the snippet runtime;
* `ErrorValue.text`: what an error says;
* `ErrorValue.source`: the error that an error wraps and does not report in its own text.
-/

namespace Stencil

mutual

/-- The failure of one template. -/
inductive TransformError where
  /-- The template could not be read. -/
  | read (path : String) (source : IoError)
  /-- The markup of the template is not closed. -/
  | markup (path : String) (source : Unterminated)
  /-- The program of the template failed; its source may have been saved. -/
  | execution (path : String) (source : ExecutionError) (saved : Option String)
  /-- The output could not be written. -/
  | output (path : String) (source : IoError)

/-- The failure of a generated program. -/
inductive ExecutionError where
  /-- The snippet runtime could not be prepared. -/
  | setup (source : ErrorValue)
  /-- The program did not compile. -/
  | compile (source : CompileError)
  /-- The program raised an error. -/
  | runtime (source : ErrorValue)

/-- Why a generated program did not compile. -/
inductive CompileError where
  /-- The snippet compiler refused the source. -/
  | rejected (source : ErrorValue)
  /-- An imported namespace does not exist. -/
  | unresolvedImport (ns : String) (source : Option ErrorValue)

/-- An error of the snippet runtime. -/
inductive ScriptError where
  /-- A snippet raised an error. -/
  | runtime (message : String)
  /-- A snippet is not well-formed. -/
  | malformed (message : String)
  /-- The runtime ran out of memory. -/
  | memory (message : String)
  /-- An operation is not safe. -/
  | safety (message : String)
  /-- A call with more arguments or results than the stack holds. -/
  | stackExhausted
  /-- More arguments than can be bound to a function. -/
  | bindExhausted
  /-- A coroutine that cannot be resumed. -/
  | unresumable
  /-- A host object of another type than the one expected. -/
  | objectMismatch
  /-- An engine function failed, with the trace of its call. -/
  | callback (trace : String) (cause : ScriptError)
  /-- An error with a text put before it. -/
  | context (text : String) (cause : ScriptError)
  /-- An engine function was given an argument it cannot use. -/
  | badArgument (callee : Option String) (position : Nat) (name : Option String)
      (cause : ScriptError)
  /-- A snippet value cannot be converted for the engine. -/
  | fromSnippet (source target : String) (note : Option String)
  /-- An engine value cannot be converted for a snippet. -/
  | toSnippet (source target : String) (note : Option String)
  /-- An error from outside the runtime. -/
  | external (source : ErrorValue)

/-- Any error. -/
inductive ErrorValue where
  | transform (e : TransformError)
  | execution (e : ExecutionError)
  | compile (e : CompileError)
  | markup (e : Unterminated)
  | io (e : IoError)
  /-- An input or output error that was made of another error. -/
  | ioOf (payload : ErrorValue)
  | script (e : ScriptError)
  /-- An error that is only a text. -/
  | plain (text : String)
  /-- An error with a text and a source. -/
  | wrapped (text : String) (source : ErrorValue)

end

instance : Inhabited ErrorValue := ⟨.plain ""⟩
instance : Inhabited ScriptError := ⟨.runtime ""⟩

namespace TransformError

/-- The template that a failure belongs to. -/
def path : TransformError → String
  | .read path _ | .markup path _ | .execution path _ _ | .output path _ => path

/-- Where the generated source was saved, for a failed program. -/
def saved : TransformError → Option String
  | .execution _ _ saved => saved
  | _ => none

/-- What a failure says. -/
def text : TransformError → String
  | .read path _ => "failed to read template " ++ path
  | .markup path _ => "syntax error in template " ++ path
  | .execution path _ _ => "execution of template " ++ path ++ " failed"
  | .output path _ => "failed to write output of template " ++ path

/-- The error that a failure wraps. -/
def source : TransformError → ErrorValue
  | .read _ e | .output _ e => .io e
  | .markup _ e => .markup e
  | .execution _ e _ => .execution e

end TransformError

namespace ExecutionError

/-- What a failed program says. -/
def text : ExecutionError → String
  | .setup _ => "failed to prepare the snippet runtime"
  | .compile _ => "generated program failed to compile"
  | .runtime _ => "generated program raised an error"

/-- The error that a failed program wraps. -/
def source : ExecutionError → ErrorValue
  | .setup e | .runtime e => e
  | .compile e => .compile e

end ExecutionError

namespace CompileError

/-- What a failed compilation says. -/
def text : CompileError → String
  | .rejected _ => "snippet compiler rejected the generated source"
  | .unresolvedImport ns _ => "cannot resolve imported namespace `" ++ ns ++ "`"

/-- The error that a failed compilation wraps. -/
def source : CompileError → Option ErrorValue
  | .rejected e => some e
  | .unresolvedImport _ e => e

end CompileError

/-- The header that a trace may start with. -/
def traceHeader : String := "stack traceback:"

/-- A text without the copies of `m` that it starts with; at most `fuel` of them. -/
def dropCopies (m : List Char) : Nat → List Char → List Char
  | 0, cs => cs
  | fuel + 1, cs => if m.isPrefixOf cs then dropCopies m fuel (cs.drop m.length) else cs

/-- A text without the headers that it starts with. -/
def dropHeaders (cs : List Char) : List Char :=
  dropCopies traceHeader.toList cs.length cs

/-- A note in parentheses after a text, if there is one. -/
def noteSuffix : Option String → String
  | some note => " (" ++ note ++ ")"
  | none => ""

namespace ScriptError

/-- The trace of the innermost of nested failures of engine functions. -/
def innermostTrace : ScriptError → Option String
  | .callback trace cause => some ((innermostTrace cause).getD trace)
  | _ => none

/-- The trace that the text of a failed engine function ends with: where its own trace is part of
the innermost one, the place is marked. -/
def callbackTrace (own : String) (innermost : Option String) : String :=
  match innermost with
  | none => String.ofList (Text.trimEnd own.toList)
  | some full =>
    match Text.cut (Text.trim (dropHeaders own.toList)) full.toList with
    | some (before, _) =>
      String.ofList before ++ ">" ++
        String.ofList (Text.trimEnd (full.toList.drop before.length))
    | none => String.ofList (Text.trimEnd full.toList)

end ScriptError

mutual

/-- What the root of nested failures of engine functions says, and what an error itself says. -/
def ScriptError.texts : ScriptError → String × String
  | .runtime m => ("runtime error: " ++ m, "runtime error: " ++ m)
  | .malformed m => ("syntax error: " ++ m, "syntax error: " ++ m)
  | .memory m => ("memory error: " ++ m, "memory error: " ++ m)
  | .safety m => ("safety error: " ++ m, "safety error: " ++ m)
  | .stackExhausted =>
    let m := "out of Lua stack, too many arguments to a Lua function or too many return values " ++
      "from a callback"
    (m, m)
  | .bindExhausted => ("too many arguments to Function::bind", "too many arguments to Function::bind")
  | .unresumable => ("coroutine is non-resumable", "coroutine is non-resumable")
  | .objectMismatch => ("userdata is not expected type", "userdata is not expected type")
  | .callback trace cause =>
    let root := (ScriptError.texts cause).1
    (root, root ++ "\n" ++ ScriptError.callbackTrace trace (ScriptError.innermostTrace cause) ++ "\n")
  | .context text cause =>
    let m := text ++ "\n" ++ (ScriptError.texts cause).2
    (m, m)
  | .badArgument callee position name cause =>
    let which :=
      match name with
      | some name => "bad argument `" ++ name ++ "`"
      | none => "bad argument #" ++ toString position
    let whose :=
      match callee with
      | some callee => " to `" ++ callee ++ "`"
      | none => ""
    let m := which ++ whose ++ ": " ++ (ScriptError.texts cause).2
    (m, m)
  | .fromSnippet source target note =>
    let m := "error converting Lua " ++ source ++ " to " ++ target ++ noteSuffix note
    (m, m)
  | .toSnippet source target note =>
    let m := "error converting " ++ source ++ " to Lua " ++ target ++ noteSuffix note
    (m, m)
  | .external source =>
    let m := ErrorValue.text source
    (m, m)

/-- What an error says. -/
def ErrorValue.text : ErrorValue → String
  | .transform e => e.text
  | .execution e => e.text
  | .compile e => e.text
  | .markup e => e.message
  | .io e => e.message
  | .ioOf payload => ErrorValue.text payload
  | .script e => (ScriptError.texts e).2
  | .plain text => text
  | .wrapped text _ => text

end

/-- What an error of the snippet runtime says. -/
def ScriptError.text (e : ScriptError) : String :=
  (ScriptError.texts e).2

mutual

/-- The error behind an error of the snippet runtime, where its own text does not report it. -/
def ScriptError.source : ScriptError → Option ErrorValue
  | .external e => ErrorValue.source e
  | .context _ cause => ScriptError.source cause
  | _ => none

/-- The error that an error wraps. An input or output error shows the text of the error that it was
made of as its own, and so wraps what that error wraps. -/
def ErrorValue.source : ErrorValue → Option ErrorValue
  | .transform e => some e.source
  | .execution e => some e.source
  | .compile e => e.source
  | .ioOf payload => ErrorValue.source payload
  | .script e => ScriptError.source e
  | .wrapped _ e => some e
  | .markup _ | .io _ | .plain _ => none

end

end Stencil
