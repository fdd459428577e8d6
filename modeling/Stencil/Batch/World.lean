import Stencil.Batch.Event
import Stencil.Batch.Sink

/-!
# The world of a run

Everything that a run can read or change: the files, the shared writer, the diagnostics, and the
events that it reported.
-/

namespace Stencil

/-- Everything a run can read or change. -/
structure World where
  outlets : Outlets
  diagnostics : Writer
  /-- The events reported so far, in order. -/
  log : List Event
  deriving Inhabited

namespace World

/-- The files of a world. -/
def files (w : World) : FileSystem := w.outlets.files

/-- Reports an event. -/
def report (w : World) (e : Event) : World :=
  { w with log := w.log ++ [e] }

/-- Reports several events. -/
def reportAll (w : World) (es : List Event) : World :=
  { w with log := w.log ++ es }

/-- Reports that a template entered a state. -/
def enter (w : World) (template : String) (state : RunState) : World :=
  w.report (.entered template state)

/-- Puts other files in the world. -/
def withFiles (w : World) (files : FileSystem) : World :=
  { w with outlets := { w.outlets with files } }

end World

end Stencil
