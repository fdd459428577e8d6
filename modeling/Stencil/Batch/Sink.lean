import Stencil.Batch.Writer
import Stencil.Files.Disk

/-!
# Where output goes

Output goes to a writer shared by all files or to an artifact of its own. A destination is
acquired, written to, and finished or released; it is flushed when it is released, on every way
out. An artifact has a buffer, and so an output that does not fit on the disk may show as late as
when it is flushed.

* `Target`: a destination;
* `Handle`: a destination that is open;
* `Outlets.deliver`: acquire a destination, write to it, finish it;
* `isUpToDate`: whether an artifact is newer than its template.
-/

namespace Stencil

/-- How the files of a batch were named, which decides where their output goes. -/
inductive Mode where
  /-- Files named one by one: output goes to the shared writer. -/
  | stream
  /-- Discovered files: output goes to an artifact beside each file. -/
  | artifact
  deriving Repr, BEq, DecidableEq, Inhabited

/-- A destination of output. -/
inductive Target where
  | shared
  | artifact (path : String)
  deriving Repr, BEq, DecidableEq, Inhabited

/-- The artifact of a target. -/
def Target.artifact? : Target → Option String
  | .shared => none
  | .artifact path => some path

/-- A destination that is open. -/
structure Handle where
  target : Target
  /-- The bytes in the buffer of an artifact. -/
  pending : ByteArray := ByteArray.empty
  deriving Inhabited

/-- The size of the buffer of an artifact. -/
def Handle.capacity : Nat := 8192

/-- What output can reach: the files and the shared writer. -/
@[ext] structure Outlets where
  files : FileSystem
  shared : Writer
  deriving Inhabited

namespace Outlets

/-- Opens a destination. An artifact is created, or emptied. -/
def acquire (d : Disk) (o : Outlets) (target : Target) : Outlets × Except IoError Handle :=
  match target with
  | .shared => (o, .ok { target })
  | .artifact path =>
    match d.create o.files path with
    | .error e => (o, .error e)
    | .ok files => ({ o with files }, .ok { target })

/-- Flushes an open destination. What cannot be written stays in the buffer. -/
def flush (d : Disk) (o : Outlets) (h : Handle) : (Outlets × Handle) × Except IoError Unit :=
  match h.target with
  | .shared =>
    let (shared, result) := o.shared.flush
    (({ o with shared }, h), result)
  | .artifact path =>
    let ((files, pending), result) := d.append o.files path h.pending
    (({ o with files }, { h with pending }), result)

/-- Makes room for some bytes in the buffer of a destination. -/
def makeRoom (d : Disk) (o : Outlets) (h : Handle) (bytes : ByteArray) :
    (Outlets × Handle) × Except IoError Unit :=
  if Handle.capacity < h.pending.size + bytes.size then o.flush d h else ((o, h), .ok ())

/-- Writes to an open destination. What is as large as the buffer of an artifact goes past it. -/
def emit (d : Disk) (o : Outlets) (h : Handle) (bytes : ByteArray) :
    (Outlets × Handle) × Except IoError Unit :=
  match h.target with
  | .shared =>
    let (shared, result) := o.shared.write bytes
    (({ o with shared }, h), result)
  | .artifact path =>
    match o.makeRoom d h bytes with
    | (x, .error e) => (x, .error e)
    | ((o, h), .ok _) =>
      if bytes.size < Handle.capacity then
        ((o, { h with pending := h.pending ++ bytes }), .ok ())
      else
        let ((files, _), result) := d.append o.files path bytes
        (({ o with files }, h), result)

/-- Releases a destination, which flushes it; an error goes unnoticed. What is left in the buffer of
an artifact is tried once more as its file is closed. -/
def release (d : Disk) (o : Outlets) (h : Handle) : Outlets :=
  let ((o, h), _) := o.flush d h
  match h.target with
  | .shared => o
  | .artifact _ => (o.flush d h).1.1

/-- Flushes a destination and releases it. -/
def finish (d : Disk) (o : Outlets) (h : Handle) : Outlets × Except IoError Unit :=
  let ((o, h), result) := o.flush d h
  (o.release d h, result)

/-- Writes the output of one file to its destination. -/
def deliver (d : Disk) (o : Outlets) (target : Target) (bytes : ByteArray) :
    Outlets × Except IoError Unit :=
  match o.acquire d target with
  | (o, .error e) => (o, .error e)
  | (o, .ok h) =>
    match o.emit d h bytes with
    | ((o, h), .error e) => (o.release d h, .error e)
    | ((o, h), .ok _) => o.finish d h

end Outlets

/-- Whether an artifact is there and was changed after its template. -/
def isUpToDate (files : FileSystem) (template artifact : String) : Except IoError Bool :=
  match files.modifiedAt artifact with
  | .error e => if e = .notFound then .ok false else .error e
  | .ok artifactTime =>
    match files.modifiedAt template with
    | .error e => .error e
    | .ok templateTime => .ok (decide (templateTime < artifactTime))

end Stencil
