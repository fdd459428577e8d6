import Stencil.Markup.Directive
import Stencil.Markup.Location

/-!
# Reading template markup

A template is literal text with code regions between `<#` and `#>`. The text is cut at every
opening marker; in each piece after the first, what precedes the first closing marker is code and
what follows it is literal text.

* `splitOpen`: the text before the first opening marker and the pieces after each one;
* `Markup.parse`: the segments, or the location of the first region that is not closed.
-/

namespace Stencil

/-- Opens a code region. -/
def openMarker : String := "<#"

/-- Closes a code region. -/
def closeMarker : String := "#>"

/-- A code region that is never closed, by the location of its opening marker. -/
structure Unterminated where
  location : Location
  deriving Repr, BEq, DecidableEq, Inhabited

/-- The report of a region that is never closed. -/
def Unterminated.message (e : Unterminated) : String :=
  s!"unterminated code region: `<#` at line {e.location.line}, column {e.location.column} has no closing `#>`"

/-- The text before the first opening marker, and the pieces that follow the opening markers. -/
def splitOpen : List Char → List Char × List (List Char)
  | '<' :: '#' :: cs =>
    let rest := splitOpen cs
    ([], rest.1 :: rest.2)
  | c :: cs =>
    let rest := splitOpen cs
    (c :: rest.1, rest.2)
  | [] => ([], [])

/-- The segments of a literal text: none if it is empty. -/
def literalSegments (text : List Char) : List Segment :=
  if text.isEmpty then [] else [.literal (String.ofList text)]

/-- The segment of a code region, by the first character of its code. -/
def classify : List Char → Segment
  | '@' :: body => .directive (Directive.parseChars body)
  | '=' :: code => .expression (String.ofList (Text.trim code))
  | code => .statement (String.ofList code)

/-- The segments of the pieces that follow opening markers, the first of which stands `start`
characters into the text; otherwise where the first region without an end starts. -/
def regionSegments (start : Nat) : List (List Char) → Except Nat (List Segment)
  | [] => .ok []
  | piece :: rest =>
    match Text.cut ['#', '>'] piece with
    | none => .error start
    | some (code, text) =>
      match regionSegments (start + 2 + piece.length) rest with
      | .error e => .error e
      | .ok segments => .ok (classify code :: (literalSegments text ++ segments))

/-- The segments of a text. -/
def segmentsOf (cs : List Char) : Except Nat (List Segment) :=
  let parts := splitOpen cs
  match regionSegments parts.1.length parts.2 with
  | .error e => .error e
  | .ok segments => .ok (literalSegments parts.1 ++ segments)

/-- Reads a template. It fails on the first region that is not closed, with no partial result. -/
def Markup.parse (text : String) : Except Unterminated Markup :=
  match segmentsOf text.toList with
  | .error start => .error ⟨Location.after (text.toList.take start)⟩
  | .ok segments => .ok (Markup.ofSegments segments)

end Stencil
