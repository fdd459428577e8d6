import Stencil.Files.System

/-!
# Disks

A file can be written at a path that is good, and still not be opened, or take only the first of its
bytes: permissions, quotas and room are not part of a directory tree. A disk says when.

* `Disk`: what goes wrong when files are written;
* `Disk.create`, `Disk.append`: open a file, and write to the end of it;
* `Disk.save`: both, for the whole content of a file.
-/

namespace Stencil

/-- What goes wrong when files are written at paths that are good. -/
structure Disk where
  /-- The error with which a file cannot be opened. -/
  refuses : FileSystem → String → Option IoError
  /-- How many bytes get into an open file, and the error that keeps out the others. -/
  stops : FileSystem → String → ByteArray → Option (Nat × IoError)

namespace Disk

/-- A disk on which nothing goes wrong. -/
def sound : Disk where
  refuses _ _ := none
  stops _ _ _ := none

/-- A disk on which a number of bytes is left for each write. What does not fit is cut off. -/
def withRoom (room : Nat) : Disk where
  refuses _ _ := none
  stops _ _ bytes := if bytes.size ≤ room then none else some (room, .os 28)

/-- Opens the file at a path for writing. It is made, or emptied. -/
def create (d : Disk) (fs : FileSystem) (p : String) : Except IoError FileSystem :=
  match fs.write p ByteArray.empty with
  | .error e => .error e
  | .ok opened =>
    match d.refuses fs p with
    | some e => .error e
    | none => .ok opened

/-- How many of some bytes get into an open file, and whether that is all of them. -/
def through (d : Disk) (fs : FileSystem) (p : String) (bytes : ByteArray) :
    Nat × Except IoError Unit :=
  match d.stops fs p bytes with
  | none => (bytes.size, .ok ())
  | some (n, e) => (n, .error e)

/-- Writes to the end of an open file, and gives the bytes that were not written. -/
def append (d : Disk) (fs : FileSystem) (p : String) (bytes : ByteArray) :
    (FileSystem × ByteArray) × Except IoError Unit :=
  if bytes.isEmpty then ((fs, bytes), .ok ())
  else
    match fs.readBytes p with
    | .error e => ((fs, bytes), .error e)
    | .ok before =>
      let (n, result) := d.through fs p bytes
      match fs.write p (before ++ bytes.extract 0 n) with
      | .error e => ((fs, bytes), .error e)
      | .ok fs => ((fs, bytes.extract n bytes.size), result)

/-- Makes the file at a path, or replaces its content. -/
def save (d : Disk) (fs : FileSystem) (p : String) (content : ByteArray) :
    FileSystem × Except IoError Unit :=
  match d.create fs p with
  | .error e => (fs, .error e)
  | .ok fs =>
    let ((fs, _), result) := d.append fs p content
    (fs, result)

end Disk

end Stencil
