import Stencil.Failure.IoError

/-!
# Writers

A writer collects bytes. It may be full beyond a number of bytes, and its flushes may fail.
-/

namespace Stencil

/-- A destination of bytes that stays open. -/
structure Writer where
  written : ByteArray := ByteArray.empty
  /-- The most bytes that it takes. -/
  limit : Option Nat := none
  /-- Whether flushes fail. -/
  failFlush : Bool := false
  /-- How often it was flushed. -/
  flushes : Nat := 0
  deriving Inhabited

namespace Writer

/-- The error of a writer that takes no more bytes. -/
def full : IoError := .other "writer is full"

/-- The error of a failed flush. -/
def unflushed : IoError := .other "cannot flush"

/-- Whether more bytes fit. -/
def fits (w : Writer) (bytes : ByteArray) : Bool :=
  match w.limit with
  | none => true
  | some limit => bytes.isEmpty || w.written.size + bytes.size ≤ limit

/-- Writes all of some bytes, or none if they do not fit. -/
def write (w : Writer) (bytes : ByteArray) : Writer × Except IoError Unit :=
  if w.fits bytes then ({ w with written := w.written ++ bytes }, .ok ()) else (w, .error full)

/-- Writes each of some texts in turn, until one does not fit. -/
def writeEach (w : Writer) : List String → Writer × Except IoError Unit
  | [] => (w, .ok ())
  | text :: rest =>
    match w.write text.toUTF8 with
    | (w, .error e) => (w, .error e)
    | (w, .ok _) => writeEach w rest

/-- Flushes a writer. -/
def flush (w : Writer) : Writer × Except IoError Unit :=
  ({ w with flushes := w.flushes + 1 }, if w.failFlush then .error unflushed else .ok ())

end Writer

end Stencil
