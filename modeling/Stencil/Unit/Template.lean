import Stencil.Path.Basic

/-!
# Templates

A template is a text and the absolute path it was read from. Snippets see the path through their
host value.
-/

namespace Stencil

/-- The text of a template and its absolute path. -/
structure Template where
  path : String
  text : String
  deriving Repr, BEq, DecidableEq, Inhabited

/-- A template from a text in memory: its path is read in the working directory `cwd` and freed
of `.` and `..`. -/
def Template.new (cwd path text : String) : Template where
  path := Path.fold cwd path
  text := text

namespace Host

/-- The directory of a template; empty if its path has no parent. -/
def directory (templateFile : String) : String :=
  (Path.parent templateFile).getD ""

/-- A path read from the directory of a template. -/
def resolve (templateFile rel : String) : String :=
  Path.join (directory templateFile) rel

/-- The path of the artifact of a template, unless the extension has a separator in it. -/
def artifactPath (templateFile ext : String) : Option String :=
  Path.withExtension templateFile ext

/-- Where the generated source of a failed template is saved, unless the suffix or the extension
has a separator in it. -/
def debugPath (templateFile suffix ext : String) : Option String :=
  Path.withExtension templateFile (suffix ++ "." ++ ext)

end Host

end Stencil
