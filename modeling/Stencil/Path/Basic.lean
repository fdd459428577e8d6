import Stencil.Text.Search

/-!
# Paths

Slash-separated paths as texts: their components, file name, parent and extension. Nothing here
looks at a disk.

* `Path.components`: repeated separators and inner `.` components do not count;
* `Path.parent`, `Path.fileName`, `Path.join`;
* `Path.withExtension`: the path with the text after the last dot of its file name replaced;
* `Path.fold`: a path made absolute, and freed of `.` and `..`.
-/

namespace Stencil.Path

open Text (splitAt)

/-- One component of a path. -/
inductive Component where
  | root
  | current
  | parent
  | normal (name : String)
  deriving Repr, BEq, DecidableEq, Inhabited

/-- Whether a path starts at the root. -/
def isAbsolute (p : String) : Bool :=
  p.toList.head? = some '/'

/-- The component of a piece between separators; empty pieces and `.` have none. -/
def pieceComponent (piece : List Char) : Option Component :=
  match piece with
  | [] | ['.'] => none
  | ['.', '.'] => some .parent
  | name => some (.normal (String.ofList name))

/-- The components of a path, from the left. A `.` counts only where a relative path starts. -/
def components (p : String) : List Component :=
  let pieces := splitAt '/' p.toList
  let body := pieces.filterMap pieceComponent
  if isAbsolute p then .root :: body
  else if pieces.head? = some ['.'] then .current :: body
  else body

/-- The leading part of a path that is a component of its own and not part of a name: the root
separator, or the `.` that a relative path starts with. -/
def leading : List Char → List Char
  | '/' :: _ => ['/']
  | ['.'] => ['.']
  | '.' :: '/' :: _ => ['.']
  | _ => []

/-- Drops separators and `.` components from the end of a reversed path. -/
def trimReversed : List Char → List Char
  | '/' :: r => trimReversed r
  | ['.'] => []
  | '.' :: '/' :: r => trimReversed r
  | r => r

/-- A path as its leading part and the reversed rest, which ends in its last name. -/
def spine (p : String) : List Char × List Char :=
  let head := leading p.toList
  (head, trimReversed (p.toList.drop head.length).reverse)

/-- The path of a leading part and a reversed rest. -/
def ofSpine (head back : List Char) : String :=
  String.ofList (head ++ back.reverse)

/-- The last name of a path; a path that ends in `..`, or is only a root, has none. -/
def fileName (p : String) : Option String :=
  match (spine p).2.takeWhile (· ≠ '/') with
  | [] => none
  | ['.', '.'] => none
  | name => some (String.ofList name.reverse)

/-- The path without its last component; the root and the empty path have no parent. -/
def parent (p : String) : Option String :=
  let (head, back) := spine p
  match back with
  | [] => if head = ['.'] then some "" else none
  | _ => some (ofSpine head (trimReversed (back.dropWhile (· ≠ '/'))))

/-- A file name before its last dot and after it. A name has no extension if it has no dot, or
its only dot comes first. -/
def splitName (name : List Char) : List Char × Option (List Char) :=
  let back := name.reverse
  match back.dropWhile (· ≠ '.') with
  | [] => (name, none)
  | [_] => (name, none)
  | _ :: stem => (stem.reverse, some (back.takeWhile (· ≠ '.')).reverse)

/-- The text after the last dot of the file name. -/
def extension (p : String) : Option String :=
  match fileName p with
  | none => none
  | some name => (splitName name.toList).2.map String.ofList

/-- The path as written, without as many characters at its end as its extension has. -/
def dropExtension (p : String) : String :=
  match extension p with
  | none => p
  | some old => String.ofList (p.toList.take (p.length - old.length))

/-- The path with its extension replaced, or added if it has none; the dot goes too if the new
extension is empty. A path with no file name stays as it is, and so does one that is left with
none once its extension is off: `..a` becomes `..`. An extension with a separator is refused. -/
def withExtension (p ext : String) : Option String :=
  if '/' ∈ ext.toList then none
  else
    let bare := dropExtension p
    let (head, back) := spine bare
    match fileName bare with
    | none => some bare
    | some name =>
      let dir := back.dropWhile (· ≠ '/')
      let stem := (splitName name.toList).1
      let suffix := if ext.isEmpty then [] else '.' :: ext.toList
      some (String.ofList (head ++ dir.reverse ++ stem ++ suffix))

/-- The path `rel` read from the directory `p`: an absolute path replaces it. -/
def join (p rel : String) : String :=
  if isAbsolute rel then rel
  else
    match p.toList.getLast? with
    | none => rel
    | some '/' => p ++ rel
    | some _ => p ++ "/" ++ rel

/-- One step of reading the components of a path onto a stack of names, with the last name on
top. -/
def foldStep (names : List String) : Component → List String
  | .root => []
  | .current => names
  | .parent => names.drop 1
  | .normal name => name :: names

/-- The names of a path read onto a stack: `.` does nothing, `..` removes the top name. The last
name is on top. -/
def foldNames (names : List String) (cs : List Component) : List String :=
  cs.foldl foldStep names

/-- The absolute path of a stack of names, the last name on top. -/
def ofNames (names : List String) : String :=
  "/" ++ String.intercalate "/" names.reverse

/-- The absolute path of `p` read in the working directory `cwd`, without `.` and `..`; the empty
path stays empty. -/
def fold (cwd p : String) : String :=
  if p.isEmpty then ""
  else ofNames (foldNames (foldNames [] (components cwd)) (components p))

end Stencil.Path
