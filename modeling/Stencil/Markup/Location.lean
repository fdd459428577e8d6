/-!
# Locations in a text

Where something starts in a text: by bytes, and by line and column.
-/

namespace Stencil

/-- A place in a text: its byte offset, its line from 1, and its column in characters from 1. -/
structure Location where
  offset : Nat
  line : Nat
  column : Nat
  deriving Repr, BEq, DecidableEq, Inhabited

/-- The number of bytes of a text. -/
def byteLength (cs : List Char) : Nat :=
  cs.foldl (fun n c => n + c.utf8Size) 0

/-- The location right after a text, on which everything before a place depends. -/
def Location.after (before : List Char) : Location where
  offset := byteLength before
  line := before.count '\n' + 1
  column := (before.reverse.takeWhile (· ≠ '\n')).length + 1

end Stencil
