import Stencil.Batch.World
import Stencil.Failure.Error
import Stencil.Unit.Assembly

/-!
# Snippet languages

A snippet language spells the generated code, compiles it and runs it. Compiling and running are
apart, so that a failure of one can be told from a failure of the other. Both may have effects: what
a snippet does to the files is its own affair.

* `Interpreter`: a language with effects;
* `Language`: a language without effects;
* `Language.interpreter`: a language without effects is one with effects.
-/

namespace Stencil

/-- A snippet language. It sees the world and its own state, and may change its state and the
files. -/
structure Interpreter (σ : Type) where
  dialect : Dialect
  /-- A compiled program, ready to run once. -/
  Program : Type
  /-- Compiles the unit of the template at a path. -/
  compile : World → σ → String → CompilationUnit → (FileSystem × σ) × Except ExecutionError Program
  /-- Runs a program to its end and gives everything it wrote. -/
  run : World → σ → Program → (FileSystem × σ) × Except ExecutionError ByteArray

/-- A snippet language that sees the files and changes none, and has no state. -/
structure Language where
  dialect : Dialect
  /-- A compiled program, ready to run once. -/
  Program : Type
  /-- Compiles the unit of the template at a path. -/
  compile : FileSystem → String → CompilationUnit → Except ExecutionError Program
  /-- Runs a program to its end and gives everything it wrote. -/
  run : Program → Except ExecutionError ByteArray

/-- A language as an interpreter that leaves the files as they are. -/
def Language.interpreter (language : Language) : Interpreter Unit where
  dialect := language.dialect
  Program := language.Program
  compile w _ path u := ((w.files, ()), language.compile w.files path u)
  run w _ program := ((w.files, ()), language.run program)

end Stencil
