/-!
# Events

What a run reports while it works. An event has a level, the part of the program that reports it,
a message and named fields.
-/

namespace Stencil

/-- Where a file is in its transform. -/
inductive RunState where
  | parsed
  | assembled
  | compiling
  | running
  | succeeded
  | failed
  deriving Repr, BEq, DecidableEq, Inhabited

/-- The states in the order in which a file moves through them; the last two are the ends. -/
def RunState.all : List RunState :=
  [.parsed, .assembled, .compiling, .running, .succeeded, .failed]

/-- The name of a state. -/
def RunState.name : RunState → String
  | .parsed => "parsed"
  | .assembled => "assembled"
  | .compiling => "compiling"
  | .running => "running"
  | .succeeded => "succeeded"
  | .failed => "failed"

/-- How important an event is. -/
inductive Level where
  | error
  | warn
  | info
  | debug
  | trace
  deriving Repr, BEq, DecidableEq, Inhabited

/-- The name of a level. -/
def Level.name : Level → String
  | .error => "ERROR"
  | .warn => "WARN"
  | .info => "INFO"
  | .debug => "DEBUG"
  | .trace => "TRACE"

/-- How much detail a level stands for, from 1 for errors. -/
def Level.detail : Level → Nat
  | .error => 1
  | .warn => 2
  | .info => 3
  | .debug => 4
  | .trace => 5

/-- Something that a run reports. -/
inductive Event where
  /-- The artifact of a file was newer than the file. -/
  | skipped (path : String)
  /-- The transform of a file starts. -/
  | processing (path : String)
  /-- The output of a file was written. -/
  | done (path : String)
  /-- A template entered a state. -/
  | entered (template : String) (state : RunState)
  /-- A directive of this key does nothing. -/
  | ignoredDirective (key : String)
  /-- The generated source of a failed template could not be saved. -/
  | sourceUnsaved (template : String) (error : String)
  /-- The report of a failure could not be written. -/
  | reportUnwritten (error : String)
  /-- Templates are looked for below a directory. -/
  | workingDirectory (path : String)
  /-- The run failed. -/
  | runFailed (text : String)
  deriving Repr, BEq, DecidableEq, Inhabited

namespace Event

/-- The level of an event. -/
def level : Event → Level
  | .skipped _ | .processing _ | .done _ | .workingDirectory _ => .info
  | .entered .. | .ignoredDirective _ => .debug
  | .sourceUnsaved .. | .reportUnwritten _ => .warn
  | .runFailed _ => .error

/-- The part of the program that reports an event. -/
def target : Event → String
  | .skipped _ | .processing _ | .done _ | .sourceUnsaved .. | .reportUnwritten _ =>
    "tiny_t4_engine::batch"
  | .entered .. => "tiny_t4_engine::orchestrator"
  | .ignoredDirective _ => "tiny_t4_engine::directive"
  | .workingDirectory _ | .runFailed _ => "tiny_t4"

/-- The message of an event; `elapsed` is how long the transform of the file took. -/
def message (elapsed : String) : Event → String
  | .skipped path => "Skipped: " ++ path
  | .processing path => "Processing: " ++ path
  | .done path => "Done: " ++ path ++ ". Elapsed: " ++ elapsed
  | .entered .. => "state transition"
  | .ignoredDirective _ => "ignoring directive with no effect"
  | .sourceUnsaved .. => "could not save generated source"
  | .reportUnwritten _ => "could not write failure report"
  | .workingDirectory path => "Working directory: " ++ path
  | .runFailed text => "Error: " ++ text

/-- The named fields of an event. -/
def fields : Event → List (String × String)
  | .entered template state => [("template", template), ("state", state.name)]
  | .ignoredDirective key => [("key", key)]
  | .sourceUnsaved template error => [("template", template), ("error", error)]
  | .reportUnwritten error => [("error", error)]
  | _ => []

/-- The line of an event in a log. -/
def line (elapsed : String) (e : Event) : String :=
  let fields := (e.fields.map fun f => " " ++ f.1 ++ "=" ++ f.2).foldl (· ++ ·) ""
  e.level.name ++ " " ++ e.target ++ ": " ++ e.message elapsed ++ fields ++ "\n"

end Event

end Stencil
