import Stencil.Failure.Trace

/-!
# Causal chains

A failure is reported as its full causal chain: the outermost error first, the root last. Each
link shows the kind of an error, its message and, when the snippet runtime recorded one, a trace.

* `ErrorValue.cause`: the next error of the chain;
* `causalChain`: one link for each error, in order;
* `renderChain`, `failureReport`: the report of a chain and of a failed template.
-/

namespace Stencil

/-- One error of a causal chain. -/
structure ChainLink where
  kind : String
  message : String
  trace : Option String
  deriving Repr, BEq, DecidableEq, Inhabited

/-- The kind of an error of the snippet runtime. -/
def ScriptError.kind : ScriptError → String
  | .runtime _ => "LuaRuntimeError"
  | .malformed _ => "LuaSyntaxError"
  | .memory _ => "LuaMemoryError"
  | .callback _ _ => "LuaCallbackError"
  | .badArgument .. => "LuaBadArgument"
  | .fromSnippet .. | .toSnippet .. => "LuaConversionError"
  | .external _ => "LuaExternalError"
  | .safety _ | .stackExhausted | .bindExhausted | .unresumable | .objectMismatch
  | .context .. => "LuaError"

/-- The kind of an error. -/
def ErrorValue.kind : ErrorValue → String
  | .transform (.read ..) => "ReadError"
  | .transform (.markup ..) => "TemplateSyntaxError"
  | .transform (.execution ..) => "TransformError"
  | .transform (.output ..) => "OutputError"
  | .execution (.setup _) => "SetupError"
  | .execution (.compile _) => "CompileError"
  | .execution (.runtime _) => "RuntimeError"
  | .compile (.rejected _) => "CompileError"
  | .compile (.unresolvedImport ..) => "UnresolvedImport"
  | .markup _ => "SyntaxError"
  | .io _ | .ioOf _ => "IoError"
  | .script e => e.kind
  | .plain _ | .wrapped .. => "Error"

/-- The message and the trace of an error. A failed engine function has a trace of its own, and a
context is a message without a trace; every other error may end its text with a trace section. -/
def ErrorValue.messageAndTrace : ErrorValue → String × Option String
  | .script (.callback trace _) => ("error in a Rust callback", some (cleanTrace trace))
  | .script (.context text _) => (text, none)
  | e => splitTrace e.text

/-- The link that describes an error. -/
def ErrorValue.describe (e : ErrorValue) : ChainLink where
  kind := e.kind
  message := e.messageAndTrace.1
  trace := e.messageAndTrace.2

/-- The next error of a chain: what a failed engine function or a context wraps, and the source of
every other error. -/
def ErrorValue.cause : ErrorValue → Option ErrorValue
  | .script (.callback _ cause) => some (.script cause)
  | .script (.context _ cause) => some (.script cause)
  | e => e.source

/-- The source of a failure is smaller than the failure as an error. -/
theorem TransformError.sizeOf_source (e : TransformError) :
    sizeOf e.source < sizeOf (ErrorValue.transform e) := by
  rw [ErrorValue.transform.sizeOf_spec]
  cases e with
  | read path e =>
    rw [TransformError.source, ErrorValue.io.sizeOf_spec, TransformError.read.sizeOf_spec]
    omega
  | markup path e =>
    rw [TransformError.source, ErrorValue.markup.sizeOf_spec, TransformError.markup.sizeOf_spec]
    omega
  | execution path e saved =>
    rw [TransformError.source, ErrorValue.execution.sizeOf_spec,
      TransformError.execution.sizeOf_spec]
    omega
  | output path e =>
    rw [TransformError.source, ErrorValue.io.sizeOf_spec, TransformError.output.sizeOf_spec]
    omega

/-- The source of a failed program is smaller than its failure as an error. -/
theorem ExecutionError.sizeOf_source (e : ExecutionError) :
    sizeOf e.source < sizeOf (ErrorValue.execution e) := by
  rw [ErrorValue.execution.sizeOf_spec]
  cases e with
  | setup e =>
    rw [ExecutionError.source, ExecutionError.setup.sizeOf_spec]
    omega
  | compile e =>
    rw [ExecutionError.source, ErrorValue.compile.sizeOf_spec, ExecutionError.compile.sizeOf_spec]
    omega
  | runtime e =>
    rw [ExecutionError.source, ExecutionError.runtime.sizeOf_spec]
    omega

mutual

/-- The source of an error of the snippet runtime is smaller than the error. -/
theorem ScriptError.sizeOf_source (e : ScriptError) :
    ∀ s, e.source = some s → sizeOf s < sizeOf e := by
  intro s h
  cases e with
  | external e =>
    simp only [ScriptError.source] at h
    have := ErrorValue.sizeOf_source e s h
    simp only [ScriptError.external.sizeOf_spec]
    omega
  | context text cause =>
    simp only [ScriptError.source] at h
    have := ScriptError.sizeOf_source cause s h
    simp only [ScriptError.context.sizeOf_spec]
    omega
  | _ => simp [ScriptError.source] at h

/-- The source of an error is smaller than the error. -/
theorem ErrorValue.sizeOf_source (e : ErrorValue) :
    ∀ s, e.source = some s → sizeOf s < sizeOf e := by
  intro s h
  cases e with
  | transform e =>
    simp only [ErrorValue.source, Option.some.injEq] at h
    subst h
    exact e.sizeOf_source
  | execution e =>
    simp only [ErrorValue.source, Option.some.injEq] at h
    subst h
    exact e.sizeOf_source
  | compile e =>
    simp only [ErrorValue.source] at h
    cases e with
    | rejected e =>
      simp only [CompileError.source, Option.some.injEq] at h
      subst h
      simp only [ErrorValue.compile.sizeOf_spec, CompileError.rejected.sizeOf_spec]
      omega
    | unresolvedImport ns e =>
      simp only [CompileError.source] at h
      subst h
      simp only [ErrorValue.compile.sizeOf_spec, CompileError.unresolvedImport.sizeOf_spec,
        Option.some.sizeOf_spec]
      omega
  | ioOf payload =>
    simp only [ErrorValue.source] at h
    have := ErrorValue.sizeOf_source payload s h
    simp only [ErrorValue.ioOf.sizeOf_spec]
    omega
  | script e =>
    simp only [ErrorValue.source] at h
    have := ScriptError.sizeOf_source e s h
    simp only [ErrorValue.script.sizeOf_spec]
    omega
  | wrapped text e =>
    simp only [ErrorValue.source, Option.some.injEq] at h
    subst h
    simp only [ErrorValue.wrapped.sizeOf_spec]
    omega
  | _ => simp [ErrorValue.source] at h

end

/-- The cause of an error is smaller than the error. -/
theorem ErrorValue.sizeOf_cause (e c : ErrorValue) (h : e.cause = some c) :
    sizeOf c < sizeOf e := by
  unfold ErrorValue.cause at h
  split at h
  · simp only [Option.some.injEq] at h
    subst h
    simp only [ErrorValue.script.sizeOf_spec, ScriptError.callback.sizeOf_spec]
    omega
  · simp only [Option.some.injEq] at h
    subst h
    simp only [ErrorValue.script.sizeOf_spec, ScriptError.context.sizeOf_spec]
    omega
  · exact ErrorValue.sizeOf_source _ _ h

/-- An error and its causes, outermost first. -/
def ErrorValue.withCauses (e : ErrorValue) : List ErrorValue :=
  match _h : e.cause with
  | none => [e]
  | some c => e :: ErrorValue.withCauses c
termination_by sizeOf e
decreasing_by exact ErrorValue.sizeOf_cause e c _h

/-- The links of an error and its causes, outermost first. -/
def causalChain (e : ErrorValue) : List ChainLink :=
  e.withCauses.map ErrorValue.describe

/-- The line that stands for a trace that was not recorded. -/
def noTrace : String := "<no trace>"

/-- A line of a trace in a report. -/
def traceLine (line : String) : String :=
  "      at " ++ line ++ "\n"

/-- The block of a report for one link, by its number. -/
def renderLink (number : Nat) (link : ChainLink) : String :=
  "[" ++ toString number ++ "] " ++ link.kind ++ ": " ++ link.message ++ "\n" ++
    match link.trace with
    | some trace => String.join ((Text.lines trace.toList).map fun l => traceLine (String.ofList l))
    | none => traceLine noTrace

/-- The report of the links of a chain, the first of which has the given number. -/
def renderFrom (number : Nat) : List ChainLink → String
  | [] => ""
  | link :: rest => renderLink number link ++ renderFrom (number + 1) rest

/-- The report of a chain, one block for each link. -/
def renderChain (links : List ChainLink) : String :=
  renderFrom 1 links

/-- The pieces of the report of a failed template, as they are written: the chain, the end of its
line and, if the generated source was saved, where. -/
def failureReport (e : TransformError) : List String :=
  let chain := String.ofList (Text.trimEnd (renderChain (causalChain (.transform e))).toList)
  [chain, "\n"] ++
    match e.saved with
    | some path => ["Generated source saved to: ", path, "\n"]
    | none => []

end Stencil
