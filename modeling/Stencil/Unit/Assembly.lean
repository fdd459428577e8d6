import Stencil.Markup.Directive
import Stencil.Unit.Dialect

/-!
# Assembling a program

The program of a template is the binding of its host value, followed by what each segment emits,
in order. Every write statement stands on a line of its own; statements are copied as they stand.

Literals that are blank are dropped until the first literal that is not has been emitted, so the
blank lines around leading directives and code leave no trace.
-/

namespace Stencil

/-- A generated program and the namespaces to import when it is compiled. -/
structure CompilationUnit where
  source : String
  imports : List String
  deriving Repr, BEq, DecidableEq, Inhabited

/-- Whether a text ends inside a line: the text before it does if the text itself is empty. -/
def endsMidLine (before : Bool) (text : String) : Bool :=
  match text.toList.getLast? with
  | none => before
  | some c => c != '\n'

/-- A program under construction. -/
structure Draft where
  source : String
  /-- Whether the source is non-empty and does not end in a newline. -/
  midLine : Bool
  /-- Whether a literal has been emitted. -/
  textBegun : Bool
  deriving Repr, BEq, DecidableEq, Inhabited

namespace Draft

/-- The draft that holds only a first text. -/
def start (text : String) : Draft where
  source := text
  midLine := endsMidLine false text
  textBegun := false

/-- Adds a text as it stands. -/
def append (d : Draft) (text : String) : Draft :=
  { d with source := d.source ++ text, midLine := endsMidLine d.midLine text }

/-- Adds a statement on a line of its own. -/
def appendLine (d : Draft) (statement : String) : Draft :=
  ((if d.midLine then d.append "\n" else d).append statement).append "\n"

/-- Adds what a segment emits. -/
def addSegment (dialect : Dialect) (d : Draft) : Segment → Draft
  | .literal text =>
    if !d.textBegun && Text.allBlank text.toList then d
    else { d.appendLine (dialect.writeLiteral text) with textBegun := true }
  | .expression code => d.appendLine (dialect.writeExpression code)
  | .statement code => d.append code
  | .directive _ => d

end Draft

/-- The source of the program of a list of segments. -/
def assembleSource (dialect : Dialect) (path : String) (segments : List Segment) : String :=
  (segments.foldl (Draft.addSegment dialect) (Draft.start (dialect.hostBinding path))).source

/-- The program of a parsed template at a path. -/
def assemble (dialect : Dialect) (path : String) (markup : Markup) : CompilationUnit where
  source := assembleSource dialect path markup.segments
  imports := importsOf markup.directives

end Stencil
