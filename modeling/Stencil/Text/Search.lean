/-!
# Searching and cutting text

Cutting a text at a marker, and cutting it into lines.

* `cut m cs`: what stands before and after the first occurrence of `m`;
* `splitAt c cs`: the pieces between the occurrences of a character;
* `lines cs`: the lines of a text, each without its line end.
-/

namespace Stencil.Text

/-- The text before and after the first occurrence of `m`. -/
def cut (m : List Char) : List Char → Option (List Char × List Char)
  | [] => if m.isEmpty then some ([], []) else none
  | c :: cs =>
    if m.isPrefixOf (c :: cs) then some ([], (c :: cs).drop m.length)
    else (cut m cs).map fun parts => (c :: parts.1, parts.2)

/-- The pieces of a list between the occurrences of `sep`; one more than there are occurrences. -/
def splitAt {α : Type} [DecidableEq α] (sep : α) : List α → List (List α)
  | [] => [[]]
  | c :: cs =>
    if c = sep then [] :: splitAt sep cs
    else
      match splitAt sep cs with
      | [] => [[c]]
      | piece :: rest => (c :: piece) :: rest

/-- The pieces of a string between the occurrences of `sep`. -/
def pieces (sep : Char) (s : String) : List String :=
  (splitAt sep s.toList).map String.ofList

/-- A line without the carriage return that may end it. -/
def dropReturn (line : List Char) : List Char :=
  match line.getLast? with
  | some '\r' => line.dropLast
  | _ => line

/-- The lines of a text: each ends at a line feed, or at the end of the text if something stands
there; a carriage return before the line feed belongs to the line end. -/
def lines (cs : List Char) : List (List Char) :=
  let parts := splitAt '\n' cs
  let closed := parts.dropLast.map dropReturn
  match parts.getLast? with
  | some [] | none => closed
  | some last => closed ++ [last]

/-- Every occurrence of `old` replaced by `new`, from the left and without overlap, for at most
`fuel` items. -/
def replaceWithin {α : Type} [DecidableEq α] (old new : List α) : Nat → List α → List α
  | 0, cs => cs
  | _ + 1, [] => []
  | fuel + 1, c :: cs =>
    if !old.isEmpty && old.isPrefixOf (c :: cs) then
      new ++ replaceWithin old new fuel ((c :: cs).drop old.length)
    else c :: replaceWithin old new fuel cs

/-- Every occurrence of `old` replaced by `new`, from the left and without overlap. -/
def replaceAll (old new s : String) : String :=
  String.ofList (replaceWithin old.toList new.toList s.length s.toList)

end Stencil.Text
