import Stencil.Files.System

/-!
# Finding templates

Every regular file below a directory whose extension is the one asked for, in a stable order: the
entries of each directory by name. Links below the directory are not followed.
-/

namespace Stencil

/-- The path of an address read from a directory's path. -/
def Path.descend (p : String) (address : Address) : String :=
  address.foldl Path.join p

/-- The extension of the file name that an address ends in. -/
def Address.extension (address : Address) : Option String :=
  match address.getLast? with
  | none => none
  | some name => (Path.splitName name.toList).2.map String.ofList

/-- The addresses below a node of the files with an extension. -/
def Node.templates (ext : String) (node : Node) : List Address :=
  node.files.filter fun address => Address.extension address == some ext

/-- The files below `root` with the extension `ext`, in the order of a walk. A file at `root`
itself counts if it is no link. -/
def discover (fs : FileSystem) (root ext : String) : List String :=
  match fs.locateWith false root, fs.find root with
  | .ok (.found address), .ok (_, node) =>
    match fs.root.get? address, node with
    | _, .directory .. => (node.templates ext).map (Path.descend root)
    | some (.file ..), _ => if Path.extension root == some ext then [root] else []
    | _, _ => []
  | _, _ => []

end Stencil
