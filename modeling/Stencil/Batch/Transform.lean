import Stencil.Batch.Language
import Stencil.Failure.Chain
import Stencil.Unit.Template

/-!
# Transforming templates

A template is parsed, assembled, compiled and run, and its output is written. The files of a batch
are transformed one after another; the first failure stops the batch.

* `prepare`: the unit of a template;
* `Interpreter.render`: its output; the source of a failed program is saved beside the template;
* `Interpreter.processFile`: one file, from reading it to writing its output;
* `Interpreter.runBatch`: a list of files;
* `render`, `processFile`, `runBatch`: the same with a language that has no effects.
-/

namespace Stencil

/-- What shapes the transform of files. -/
structure Options where
  /-- The extension of artifacts, without the dot. -/
  extension : String := "rs"
  /-- Stands before the extension of the saved source of a failed program. -/
  debugSuffix : String := "debug_error"
  /-- Whether artifacts are made anew even if they are up to date. -/
  force : Bool := false
  deriving Repr, BEq, DecidableEq, Inhabited

/-- How a step of a transform ends. -/
inductive Attempt (α : Type) where
  | completed (value : α)
  | failed (e : TransformError)
  /-- The run is given up: an artifact's extension has a separator in it. -/
  | abandoned
  deriving Inhabited

/-- The unit of a template, and the events that preparing it reports. -/
def prepare (dialect : Dialect) (template : Template) :
    Except Unterminated (CompilationUnit × List Event) :=
  match Markup.parse template.text with
  | .error e => .error e
  | .ok markup =>
    .ok (assemble dialect template.path markup,
      .entered template.path .parsed ::
        (inertKeys markup.directives).map Event.ignoredDirective ++
          [.entered template.path .assembled])

/-- Compiles a unit and runs it. -/
def Interpreter.execute {σ : Type} (I : Interpreter σ) (path : String) (u : CompilationUnit)
    (x : World × σ) : (World × σ) × Except ExecutionError ByteArray :=
  let w := x.1.enter path .compiling
  match I.compile w x.2 path u with
  | ((files, s), .error e) => (((w.withFiles files).enter path .failed, s), .error e)
  | ((files, s), .ok program) =>
    let w := (w.withFiles files).enter path .running
    match I.run w s program with
    | ((files, s), .error e) => (((w.withFiles files).enter path .failed, s), .error e)
    | ((files, s), .ok output) => (((w.withFiles files).enter path .succeeded, s), .ok output)

/-- Saves the source of a unit beside its template. -/
def saveSource (d : Disk) (files : FileSystem) (path source : String) :
    FileSystem × Except IoError Unit :=
  d.save files path source.toUTF8

/-- What a template comes to once its unit was executed. If that failed, the source of the unit is
saved, if it can be, and the failure tells where. -/
def settle (d : Disk) (options : Options) (template : Template) (u : CompilationUnit) (w : World) :
    Except ExecutionError ByteArray → World × Attempt ByteArray
  | .ok output => (w, .completed output)
  | .error e =>
    match Host.debugPath template.path options.debugSuffix options.extension with
    | none => (w, .abandoned)
    | some path =>
      match saveSource d w.files path u.source with
      | (files, .ok _) => (w.withFiles files, .failed (.execution template.path e (some path)))
      | (files, .error io) =>
        ((w.withFiles files).report (.sourceUnsaved template.path io.message),
          .failed (.execution template.path e none))

/-- The output of a template. -/
def Interpreter.render {σ : Type} (I : Interpreter σ) (d : Disk) (options : Options)
    (template : Template) (x : World × σ) : (World × σ) × Attempt ByteArray :=
  match prepare I.dialect template with
  | .error e => (x, .failed (.markup template.path e))
  | .ok (u, events) =>
    let r := I.execute template.path u (x.1.reportAll events, x.2)
    let y := settle d options template u r.1.1 r.2
    ((y.1, r.1.2), y.2)

/-- Reads the template at a path. Its own path is the canonical one. -/
def loadTemplate (files : FileSystem) (path : String) : Except IoError Template :=
  match files.readText path with
  | .error e => .error e
  | .ok text =>
    match files.canonical path with
    | .error e => .error e
    | .ok path => .ok ⟨path, text⟩

/-- What happened to a file that did not fail. -/
inductive Outcome where
  /-- Its artifact was newer than the file. -/
  | skipped
  /-- Its output was written, to an artifact or to the shared writer. -/
  | generated (artifact : Option String)
  deriving Repr, BEq, DecidableEq, Inhabited

/-- Where the output of a file goes. -/
def targetOf (options : Options) (mode : Mode) (path : String) : Option Target :=
  match mode with
  | .stream => some .shared
  | .artifact => (Host.artifactPath path options.extension).map Target.artifact

/-- Whether a file can be left alone. -/
def isFresh (options : Options) (files : FileSystem) (path : String) :
    Target → Except IoError Bool
  | .shared => .ok false
  | .artifact artifact => if options.force then .ok false else isUpToDate files path artifact

/-- What a file comes to once its template was rendered. Its output is written. -/
def conclude (d : Disk) (path : String) (target : Target) (w : World) :
    Attempt ByteArray → World × Attempt Outcome
  | .failed e => (w, .failed e)
  | .abandoned => (w, .abandoned)
  | .completed output =>
    match w.outlets.deliver d target output with
    | (outlets, .error e) => ({ w with outlets }, .failed (.output path e))
    | (outlets, .ok _) =>
      (World.report { w with outlets } (.done path), .completed (.generated target.artifact?))

/-- Renders the file at a path and writes its output. -/
def Interpreter.generate {σ : Type} (I : Interpreter σ) (d : Disk) (options : Options)
    (path : String) (target : Target) (x : World × σ) : (World × σ) × Attempt Outcome :=
  match loadTemplate x.1.files path with
  | .error e => (x, .failed (.read path e))
  | .ok template =>
    let r := I.render d options template x
    let y := conclude d path target r.1.1 r.2
    ((y.1, r.1.2), y.2)

/-- Transforms the file at a path. An artifact that is up to date is left alone, unless `force` is
set; an artifact is only created once its output is there. -/
def Interpreter.processFile {σ : Type} (I : Interpreter σ) (d : Disk) (options : Options)
    (mode : Mode) (path : String) (x : World × σ) : (World × σ) × Attempt Outcome :=
  match targetOf options mode path with
  | none => (x, .abandoned)
  | some target =>
    match isFresh options x.1.files path target with
    | .error e => (x, .failed (.read path e))
    | .ok true => ((x.1.report (.skipped path), x.2), .completed .skipped)
    | .ok false => I.generate d options path target (x.1.report (.processing path), x.2)

/-- A file that did not fail. -/
structure FileReport where
  path : String
  outcome : Outcome
  deriving Repr, BEq, DecidableEq, Inhabited

/-- The result of a batch: the files before the first failure, and that failure. -/
structure BatchReport where
  completed : List FileReport
  failure : Option TransformError
  /-- Whether the run was given up. -/
  abandoned : Bool
  deriving Inhabited

namespace BatchReport

/-- Whether no file failed. -/
def isSuccess (r : BatchReport) : Bool :=
  r.failure.isNone

/-- How many files were generated. -/
def generated (r : BatchReport) : Nat :=
  r.completed.countP fun f => f.outcome != .skipped

/-- How many files were skipped. -/
def skipped (r : BatchReport) : Nat :=
  r.completed.countP fun f => f.outcome == .skipped

/-- The report with a file put first. -/
def cons (f : FileReport) (r : BatchReport) : BatchReport :=
  { r with completed := f :: r.completed }

end BatchReport

/-- Writes the report of a failure. -/
def World.diagnose (w : World) (e : TransformError) : World :=
  match w.diagnostics.writeEach (failureReport e) with
  | (diagnostics, .error io) =>
    World.report { w with diagnostics } (.reportUnwritten io.message)
  | (diagnostics, .ok _) =>
    match diagnostics.flush with
    | (diagnostics, .error io) =>
      World.report { w with diagnostics } (.reportUnwritten io.message)
    | (diagnostics, .ok _) => { w with diagnostics }

/-- Transforms the files of a list in order, up to the first failure. -/
def Interpreter.runBatch {σ : Type} (I : Interpreter σ) (d : Disk) (options : Options)
    (mode : Mode) : List String → World × σ → (World × σ) × BatchReport
  | [], x => (x, ⟨[], none, false⟩)
  | path :: rest, x =>
    match I.processFile d options mode path x with
    | (x, .completed outcome) =>
      let r := I.runBatch d options mode rest x
      (r.1, r.2.cons ⟨path, outcome⟩)
    | (x, .failed e) => ((x.1.diagnose e, x.2), ⟨[], some e, false⟩)
    | (x, .abandoned) => (x, ⟨[], none, true⟩)

/-! ## Languages without effects

With a language that has no effects, and a disk on which nothing goes wrong, only the world is left
to be read and changed. -/

/-- A result without the state of an interpreter that has none. -/
def stateless {α : Type} (r : (World × Unit) × α) : World × α :=
  (r.1.1, r.2)

/-- Compiles a unit and runs it. -/
def execute (language : Language) (path : String) (u : CompilationUnit) (w : World) :
    World × Except ExecutionError ByteArray :=
  stateless (language.interpreter.execute path u (w, ()))

/-- The output of a template. -/
def render (language : Language) (options : Options) (template : Template) (w : World) :
    World × Attempt ByteArray :=
  stateless (language.interpreter.render .sound options template (w, ()))

/-- Renders the file at a path and writes its output. -/
def generate (language : Language) (options : Options) (path : String) (target : Target)
    (w : World) : World × Attempt Outcome :=
  stateless (language.interpreter.generate .sound options path target (w, ()))

/-- Transforms the file at a path. -/
def processFile (language : Language) (options : Options) (mode : Mode) (path : String)
    (w : World) : World × Attempt Outcome :=
  stateless (language.interpreter.processFile .sound options mode path (w, ()))

/-- Transforms the files of a list in order, up to the first failure. -/
def runBatch (language : Language) (options : Options) (mode : Mode) (files : List String)
    (w : World) : World × BatchReport :=
  stateless (language.interpreter.runBatch .sound options mode files (w, ()))

end Stencil
