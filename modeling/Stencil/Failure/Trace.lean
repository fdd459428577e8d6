import Stencil.Failure.Error

/-!
# Traces inside messages

The snippet runtime reports where an error was raised by a section at the end of its message. The
section is taken out of the message and reduced to its lines.

* `splitTrace`: the message before the section, and the lines of the section if there is one;
* `traceLines`: the trimmed lines of a section that are not empty.
-/

namespace Stencil

/-- Starts the trace section of a message. -/
def traceMarker : String := "\n" ++ traceHeader

/-- The lines of a trace section: leading newlines and headers dropped, then each line trimmed,
then empty lines dropped. -/
def traceLines (section_ : List Char) : List (List Char) :=
  let body := dropHeaders (section_.dropWhile (· = '\n'))
  ((Text.lines body).map Text.trim).filter fun line => !line.isEmpty

/-- Lines joined by newlines. -/
def joinLines (lines : List (List Char)) : String :=
  String.ofList (List.intercalate ['\n'] lines)

/-- A trace section reduced to its lines. -/
def cleanTrace (trace : String) : String :=
  joinLines (traceLines trace.toList)

/-- A message without its trace section, and the trace if there is one. -/
def splitTrace (text : String) : String × Option String :=
  match Text.cut traceMarker.toList text.toList with
  | some (before, _) =>
    (String.ofList before, some (joinLines (traceLines (text.toList.drop before.length))))
  | none => (text, none)

end Stencil
