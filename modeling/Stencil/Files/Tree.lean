import Stencil.Path.Basic

/-!
# Directory trees

A directory tree holds files, directories and symbolic links under names. A node of a tree is
addressed by the names on the way to it.

* `Node.get?`, `Node.put`: what stands at an address, and the tree with something put there;
* `Node.files`: the regular files below a node, each directory's entries in the order of their
  names.
-/

namespace Stencil

/-- A time, in nanoseconds since 1970. -/
abbrev Time := Nat

/-- A node of a directory tree. -/
inductive Node where
  /-- A regular file: its bytes and when they were last changed. -/
  | file (content : ByteArray) (modified : Time)
  /-- A directory: its entries and when one was last added or removed. -/
  | directory (entries : List (String × Node)) (modified : Time)
  /-- A symbolic link: the path that it stands for. -/
  | link (target : String)
  deriving Inhabited

/-- The address of a node: the names from the root down to it. -/
abbrev Address := List String

namespace Node

/-- The entry of a name. -/
def child? (name : String) (entries : List (String × Node)) : Option Node :=
  (entries.find? fun e => e.1 == name).map Prod.snd

/-- The entries of a node; only a directory has any. -/
def entries : Node → List (String × Node)
  | .directory entries _ => entries
  | _ => []

/-- The node at an address. -/
def get? (node : Node) : Address → Option Node
  | [] => some node
  | name :: rest =>
    match child? name node.entries with
    | some child => child.get? rest
    | none => none

/-- Entries with the node of a name replaced, or added at the end. -/
def putEntry (name : String) (node : Node) : List (String × Node) → List (String × Node)
  | [] => [(name, node)]
  | e :: rest => if e.1 == name then (name, node) :: rest else e :: putEntry name node rest

/-- Entries without the node of a name. -/
def dropEntry (name : String) : List (String × Node) → List (String × Node)
  | [] => []
  | e :: rest => if e.1 == name then rest else e :: dropEntry name rest

/-- The tree with the node at an address changed by `f`; nothing changes if it is absent. -/
def modify (f : Node → Node) : Address → Node → Node
  | [], node => f node
  | name :: rest, .directory entries modified =>
    match child? name entries with
    | some child => .directory (putEntry name (child.modify f rest) entries) modified
    | none => .directory entries modified
  | _ :: _, node => node
termination_by address => address.length

/-- A directory with an entry put in; a new entry changes the directory at time `now`. -/
def addEntry (name : String) (child : Node) (now : Time) : Node → Node
  | .directory entries modified =>
    .directory (putEntry name child entries) (if (child? name entries).isSome then modified else now)
  | node => node

/-- A directory with an entry taken out at time `now`. -/
def removeEntry (name : String) (now : Time) : Node → Node
  | .directory entries _ => .directory (dropEntry name entries) now
  | node => node

/-- The order of entries: by name, which is also the order of the bytes of the names. -/
def byName {α : Type} (a b : String × α) : Bool :=
  decide (a.1 ≤ b.1)

mutual

/-- The addresses of the regular files at and below a node, in the order of a walk that visits
the entries of each directory by name. -/
def files : Node → List Address
  | .file .. => [[]]
  | .link .. => []
  | .directory entries _ =>
    ((entryFiles entries).mergeSort byName).flatMap fun e => e.2.map (e.1 :: ·)

/-- The addresses of the regular files in each of a list of entries. -/
def entryFiles : List (String × Node) → List (String × List Address)
  | [] => []
  | (name, node) :: rest => (name, files node) :: entryFiles rest

end

mutual

/-- Every node below a node, with its address. -/
def nodes : Node → List (Address × Node)
  | .directory entries _ => entryNodes entries
  | _ => []

/-- Every node in a list of entries, with its address. -/
def entryNodes : List (String × Node) → List (Address × Node)
  | [] => []
  | (name, node) :: rest =>
    ([name], node) :: (nodes node).map (fun n => (name :: n.1, n.2)) ++ entryNodes rest

end

end Node

end Stencil
