import Stencil.Failure.IoError
import Stencil.Files.Tree

/-!
# A file system

A directory tree with a working directory and a clock. Paths are resolved as an operating system
does it: from the root or the working directory, name by name, following symbolic links.

* `FileSystem.locate`: where a path leads;
* `readBytes`, `readText`, `modifiedAt`, `canonical`: what stands there;
* `write`, `makeDirectories`, `makeLink`, `remove`, `setModified`: changes.
-/

namespace Stencil

/-- A directory tree, the working directory in it, and the time that changes are stamped with. -/
structure FileSystem where
  root : Node
  cwd : String
  now : Time
  deriving Inhabited

/-- Where a path leads: to a node, or to a name that a directory does not have. -/
inductive Place where
  | found (address : Address)
  | absent (dir : Address) (name : String)
  deriving Repr, BEq, DecidableEq, Inhabited

/-- A step of a path on its way through a tree. -/
inductive Step where
  | here
  | up
  | into (name : String)
  deriving Repr, BEq, DecidableEq, Inhabited

/-- The steps of a path. A path that ends in a separator ends with a step that only a directory
allows. -/
def Step.ofPath (p : String) : List Step :=
  let pieces := Text.pieces '/' p
  let steps := pieces.filterMap fun piece =>
    if piece = "" then none
    else if piece = "." then some .here
    else if piece = ".." then some .up
    else some (.into piece)
  if pieces.getLast? = some "" then steps ++ [.here] else steps

/-- The place that steps lead to from a directory. `follow` resolves the steps of a symbolic
link's path, and the steps after the link, from the directory of the link. If `last` is false, a
link at the end is not followed. -/
def walkSteps (root : Node) (last : Bool) (follow : Address → List Step → Except IoError Place)
    (dir : Address) : List Step → Except IoError Place
  | [] => .ok (.found dir)
  | .here :: rest => walkSteps root last follow dir rest
  | .up :: rest => walkSteps root last follow dir.dropLast rest
  | .into name :: rest =>
    match root.get? dir with
    | some (.directory entries _) =>
      match Node.child? name entries with
      | none => if rest.isEmpty then .ok (.absent dir name) else .error .notFound
      | some (.directory ..) => walkSteps root last follow (dir ++ [name]) rest
      | some (.file ..) =>
        if rest.isEmpty then .ok (.found (dir ++ [name])) else .error .notADirectory
      | some (.link target) =>
        if rest.isEmpty && !last then .ok (.found (dir ++ [name]))
        else follow (if Path.isAbsolute target then [] else dir) (Step.ofPath target ++ rest)
    | _ => .error .notADirectory

/-- `walkSteps` through at most `links` symbolic links. -/
def walkLinks (root : Node) (last : Bool) :
    Nat → Address → List Step → Except IoError Place
  | 0, _, _ => .error .linkLoop
  | links + 1, dir, steps => walkSteps root last (walkLinks root last links) dir steps

namespace FileSystem

/-- Where a path leads. The empty path leads nowhere. -/
def locateWith (fs : FileSystem) (last : Bool) (p : String) : Except IoError Place :=
  if p.isEmpty then .error .notFound
  else
    let steps := Step.ofPath p
    walkLinks fs.root last 41 [] (if Path.isAbsolute p then steps else Step.ofPath fs.cwd ++ steps)

/-- Where a path leads, through a symbolic link at its end too. -/
def locate (fs : FileSystem) (p : String) : Except IoError Place :=
  fs.locateWith true p

/-- The address and the node that a path leads to. -/
def find (fs : FileSystem) (p : String) : Except IoError (Address × Node) :=
  match fs.locate p with
  | .error e => .error e
  | .ok (.absent ..) => .error .notFound
  | .ok (.found address) =>
    match fs.root.get? address with
    | some node => .ok (address, node)
    | none => .error .notFound

/-- The bytes of a file. -/
def readBytes (fs : FileSystem) (p : String) : Except IoError ByteArray :=
  match fs.find p with
  | .error e => .error e
  | .ok (_, .file content _) => .ok content
  | .ok (_, _) => .error .isADirectory

/-- The text of a file. -/
def readText (fs : FileSystem) (p : String) : Except IoError String :=
  match fs.readBytes p with
  | .error e => .error e
  | .ok bytes =>
    match String.fromUTF8? bytes with
    | some text => .ok text
    | none => .error .notText

/-- When what stands at a path was last changed. -/
def modifiedAt (fs : FileSystem) (p : String) : Except IoError Time :=
  match fs.find p with
  | .error e => .error e
  | .ok (_, .file _ time) | .ok (_, .directory _ time) => .ok time
  | .ok (_, .link _) => .error .linkLoop

/-- The path of an address. -/
def pathOf (address : Address) : String :=
  "/" ++ String.intercalate "/" address

/-- The absolute path of what stands at a path, without symbolic links. -/
def canonical (fs : FileSystem) (p : String) : Except IoError String :=
  match fs.find p with
  | .error e => .error e
  | .ok (address, _) => .ok (pathOf address)

/-- The file system with a file's content at an address, stamped with the current time. -/
def putFile (fs : FileSystem) (dir : Address) (name : String) (content : ByteArray) : FileSystem :=
  { fs with root := fs.root.modify (Node.addEntry name (.file content fs.now) fs.now) dir }

/-- Creates the file at a path, or replaces its content. -/
def write (fs : FileSystem) (p : String) (content : ByteArray) : Except IoError FileSystem :=
  match fs.locate p with
  | .error e => .error e
  | .ok (.absent dir name) => .ok (fs.putFile dir name content)
  | .ok (.found address) =>
    match fs.root.get? address with
    | some (.file ..) =>
      .ok { fs with root := fs.root.modify (fun _ => .file content fs.now) address }
    | _ => .error .isADirectory

/-- Makes one directory; one that is there already stays as it is. -/
def makeDirectory (fs : FileSystem) (p : String) : Except IoError FileSystem :=
  match fs.locate p with
  | .error e => .error e
  | .ok (.absent dir name) =>
    .ok { fs with root := fs.root.modify (Node.addEntry name (.directory [] fs.now) fs.now) dir }
  | .ok (.found address) =>
    match fs.root.get? address with
    | some (.directory ..) => .ok fs
    | _ => .error .alreadyExists

/-- Makes each of a list of directories. -/
def makeEach (fs : FileSystem) : List String → Except IoError FileSystem
  | [] => .ok fs
  | p :: rest =>
    match fs.makeDirectory p with
    | .error e => .error e
    | .ok fs => makeEach fs rest

/-- A path and its parents, the shortest first. -/
def withParents (p : String) : Nat → List String
  | 0 => []
  | fuel + 1 =>
    match Path.parent p with
    | none => if p.isEmpty then [] else [p]
    | some "" => [p]
    | some dir => withParents dir fuel ++ [p]

/-- Makes a directory and those above it. -/
def makeDirectories (fs : FileSystem) (p : String) : Except IoError FileSystem :=
  fs.makeEach (withParents p (p.length + 1))

/-- Makes a symbolic link. -/
def makeLink (fs : FileSystem) (target p : String) : Except IoError FileSystem :=
  match fs.locateWith false p with
  | .error e => .error e
  | .ok (.found _) => .error .alreadyExists
  | .ok (.absent dir name) =>
    .ok { fs with root := fs.root.modify (Node.addEntry name (.link target) fs.now) dir }

/-- Removes what stands at a path; a directory with all that is in it. -/
def remove (fs : FileSystem) (p : String) : Except IoError FileSystem :=
  match fs.locateWith false p with
  | .error e => .error e
  | .ok (.absent ..) => .error .notFound
  | .ok (.found address) =>
    match address.getLast? with
    | none => .error (.os 16)
    | some name => .ok { fs with root := fs.root.modify (Node.removeEntry name fs.now) address.dropLast }

/-- Sets when what stands at a path was last changed. -/
def setModified (fs : FileSystem) (p : String) (time : Time) : Except IoError FileSystem :=
  match fs.find p with
  | .error e => .error e
  | .ok (address, _) =>
    .ok { fs with
      root := fs.root.modify
        (fun
          | .file content _ => .file content time
          | .directory entries _ => .directory entries time
          | node => node)
        address }

end FileSystem

end Stencil
