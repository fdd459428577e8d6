import Stencil.Lua.Library.Argument
import Stencil.Lua.Loading
import Stencil.Text.Search

/-!
# Packages

Finding and loading packages. A package is looked for by each of a list of searchers; one looks
among the loaders that were given, one looks for a file. A path is a list of file names between
semicolons in which a question mark stands for the name of the package.

* `Packages.candidates`: the files that a path names for a package;
* `Packages.require`: the value of a package, which is loaded once.
-/

namespace Stencil.Lua.Packages

open Argument

/-- Bytes with every occurrence of some bytes replaced by others. -/
def substitute (old new bytes : List UInt8) : List UInt8 :=
  Text.replaceWithin old new bytes.length bytes

/-- A path with the name of a package put in. -/
def fillPath (path name : Bytes) : List UInt8 :=
  substitute [0x3F] name.data.toList path.data.toList

/-- The files that a path names for a package. -/
def candidates (path name : Bytes) : List Bytes :=
  (Text.splitAt 0x3B (fillPath path name)).map List.toByteArray

/-- The name of a package as a part of a file name: dots separate directories. -/
def fileNameOf (name : Bytes) : Bytes :=
  (substitute [0x2E] [0x2F] name.data.toList).toByteArray

/-- Whether a file can be opened. -/
def readable (s : Store) (path : Bytes) : Bool :=
  match s.files.find (Utf8.readable path) with
  | .ok _ => true
  | .error _ => false

/-- The message about a path none of whose files can be opened. -/
def notFoundText (filled : List UInt8) : Bytes :=
  bytesOf "no file '" ++
    (substitute [0x3B] (bytesOf "'\n\tno file '").data.toList filled).toByteArray ++ bytesOf "'"

/-- The first file of a path, with a name put in, that can be opened; or a message about all of
them. -/
def searchPath (s : Store) (path name : Bytes) : Except Bytes Bytes :=
  match (candidates path name).find? (readable s) with
  | some file => .ok file
  | none => .error (notFoundText (fillPath path name))

/-- Looks for a file on a path. -/
def searchpath (vs : List Value) : Run (List Value) := do
  let name ← string 1 vs
  let path ← string 2 vs
  let separator ← stringOr 3 vs (bytesOf ".")
  let replacement ← stringOr 4 vs (bytesOf "/")
  let name :=
    (substitute separator.data.toList replacement.data.toList name.data.toList).toByteArray
  match searchPath (← Run.store) path name with
  | .ok file => return [.string file]
  | .error message => return [.nil, .string message]

/-- Looks for a package among the loaders that were given. -/
def searchPreload (vs : List Value) : Run (List Value) := do
  let name ← string 1 vs
  match ← Run.index 0 none (.table Store.preload) (.string name) with
  | .nil =>
    return [.string (bytesOf "no field package.preload['" ++ name ++ bytesOf "']")]
  | loader => return [loader, .text ":preload:"]

/-- Looks for the file of a package. -/
def searchLua (vs : List Value) : Run (List Value) := do
  let name ← string 1 vs
  match (← Run.index 0 none (.table Store.package) (.text "path")).toBytes with
  | none => Run.complain (bytesOf "'package.path' must be a string")
  | some path =>
    match searchPath (← Run.store) path (fileNameOf name) with
    | .error message => return [.string message]
    | .ok file =>
      match (← Run.store).loadFile file (.table Store.globals) with
      | .ok (f, s) =>
        Run.modify fun _ => s
        return [f, .string file]
      | .error e =>
        Run.complain (bytesOf "error loading module '" ++ name ++ bytesOf "' from file '" ++ file ++
          bytesOf "':\n\t" ++ e.message)

/-- Packages that are not written in Lua are not loaded. -/
def searchNative (_ : List Value) : Run (List Value) :=
  pure [.text "\n\tcan't load C modules in safe mode"]

/-- The loader of a package, with its extra value, by the searchers from an index on; or the
messages of all searchers. -/
def findLoader (name : Bytes) (searchers : Nat) :
    Nat → Int64 → Bytes → Run (Value × Value)
  | 0, _, messages =>
    Run.complain (bytesOf "module '" ++ name ++ bytesOf "' not found:" ++ messages)
  | fuel + 1, i, messages => do
    match (← Run.store).rawGet searchers (.int i) with
    | .nil => Run.complain (bytesOf "module '" ++ name ++ bytesOf "' not found:" ++ messages)
    | searcher =>
      let results ← Run.call searcher [.string name] ⟨0, none⟩
      let found := value 1 results
      if found.isFunction then return (found, value 2 results)
      else
        match found.toBytes with
        | some message =>
          findLoader name searchers fuel (i + 1) (messages ++ bytesOf "\n\t" ++ message)
        | none => findLoader name searchers fuel (i + 1) messages

/-- The value of a package. It is loaded if it was not loaded before. -/
def require (vs : List Value) : Run (List Value) := do
  let name ← string 1 vs
  let package := Value.table Store.loaded
  let present ← Run.index 0 none package (.string name)
  if present.truth then return [present]
  else
    match ← Run.index 0 none (.table Store.package) (.text "searchers") with
    | .table searchers =>
      let (loader, extra) ← findLoader name searchers (Nat.pow 2 40) 1 ByteArray.empty
      let result ← Run.callOne loader [.string name, extra] ⟨0, none⟩
      if !result.isNil then Run.setIndex 0 none package (.string name) result
      match ← Run.index 0 none package (.string name) with
      | .nil =>
        Run.setIndex 0 none package (.string name) (.bool true)
        return [.bool true, extra]
      | v => return [v, extra]
    | _ => Run.complain (bytesOf "'package.searchers' must be a table")

/-- The path on which packages are looked for, unless it is changed. -/
def defaultPath : String :=
  "/usr/local/share/lua/5.4/?.lua;/usr/local/share/lua/5.4/?/init.lua;" ++
  "/usr/local/lib/lua/5.4/?.lua;/usr/local/lib/lua/5.4/?/init.lua;./?.lua;./?/init.lua"

end Stencil.Lua.Packages
