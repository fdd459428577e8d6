import Stencil.Batch.Transform
import Stencil.Cli.Arguments
import Stencil.Cli.LogFilter
import Stencil.Files.Discovery

/-!
# The command line

With files, each template's output goes to standard output. Without them, every template below the
working directory is transformed into an artifact beside it, unless its artifact is newer.
-/

namespace Stencil

/-- What a run of the program leaves behind. -/
structure CommandResult where
  /-- The exit code: 0 for success, 1 for a failed template, 2 for misuse, 101 for a run that was
  given up. -/
  exit : Nat
  files : FileSystem
  stdout : ByteArray
  /-- The log and the failure report. -/
  stderr : String

/-- The text that explains the command line. -/
def helpText : String :=
  "Transform text templates with embedded Lua code\n\n" ++
  "Usage: tiny-t4 [OPTIONS] [FILES]...\n\n" ++
  "Arguments:\n" ++
  "  [FILES]...  Templates to transform to stdout (default: discover templates under the " ++
    "working directory)\n\n" ++
  "Options:\n" ++
  "  -f, --force                     Regenerate artifacts even when they are newer than their " ++
    "template\n" ++
  "      --extension <EXT>           Extension of generated artifacts [default: rs]\n" ++
  "      --template-extension <EXT>  Extension of templates to discover when no files are given " ++
    "[default: tt]\n" ++
  "  -q, --quiet                     Only report warnings and errors\n" ++
  "  -h, --help                      Print help\n" ++
  "  -V, --version                   Print version\n"

/-- The version that the program reports. -/
def programVersion : String := "0.1.0"

/-- The options of a transform that a command line asks for. -/
def Arguments.options (a : Arguments) : Options where
  extension := a.extension.getD "rs"
  force := a.force

/-- The lines of the events that a filter shows. -/
def shownLines (filter : LogFilter) (elapsed : String) (events : List Event) : String :=
  String.join ((events.filter filter.shows).map (Event.line elapsed))

/-- Transforms the templates that a command line asks for. -/
def runTransform (language : Language) (a : Arguments) (setting : Option String)
    (elapsed : String) (files : FileSystem) : CommandResult :=
  let filter := LogFilter.choose setting a.quiet
  let discovering := a.files.isEmpty
  let paths :=
    if discovering then discover files files.cwd (a.templateExtension.getD "tt") else a.files
  let start := if discovering then [Event.workingDirectory files.cwd] else []
  let mode := if discovering then Mode.artifact else Mode.stream
  let world : World := ⟨⟨files, {}⟩, {}, start⟩
  let (world, report) := runBatch language a.options mode paths world
  let log := shownLines filter elapsed world.log
  let diagnostics := (String.fromUTF8? world.diagnostics.written).getD ""
  let result (exit : Nat) (stderr : String) : CommandResult :=
    ⟨exit, world.files, world.outlets.shared.written, stderr⟩
  if report.abandoned then result 101 log
  else
    match report.failure with
    | none => result 0 log
    | some e =>
      result 1 (log ++ diagnostics ++ shownLines filter elapsed [.runFailed e.text])

/-- Runs the program with the words of its command line and the log filter that is set. -/
def runCommand (language : Language) (words : List String) (setting : Option String)
    (elapsed : String) (files : FileSystem) : CommandResult :=
  match Request.ofWords words with
  | .misuse => ⟨2, files, ByteArray.empty, ""⟩
  | .help => ⟨0, files, helpText.toUTF8, ""⟩
  | .version => ⟨0, files, ("tiny-t4 " ++ programVersion ++ "\n").toUTF8, ""⟩
  | .transform a => runTransform language a setting elapsed files

end Stencil
