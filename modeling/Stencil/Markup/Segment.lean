/-!
# Segments of a template

A template is a flat, ordered list of segments. The list is its entire meaning.
-/

namespace Stencil

/-- A `key = value` instruction of a template. Keys may repeat; each directive is kept. -/
structure Directive where
  key : String
  value : String
  deriving Repr, BEq, DecidableEq, Inhabited

/-- One classified unit of a template. -/
inductive Segment where
  /-- Text outside code regions, copied to the output. -/
  | literal (text : String)
  /-- The trimmed expression of a `<#= … #>` region, whose value is written. -/
  | expression (code : String)
  /-- The code of a `<# … #>` region, copied into the program as it stands. -/
  | statement (code : String)
  /-- The instruction of a `<#@ … #>` region, which emits nothing. -/
  | directive (d : Directive)
  deriving Repr, BEq, DecidableEq, Inhabited

/-- The directive of a directive segment. -/
def Segment.directive? : Segment → Option Directive
  | .directive d => some d
  | _ => none

/-- A parsed template: all segments in order, and its directives in order. -/
structure Markup where
  segments : List Segment
  directives : List Directive
  deriving Repr, BEq, DecidableEq, Inhabited

/-- The parsed template of a list of segments. -/
def Markup.ofSegments (segments : List Segment) : Markup where
  segments := segments
  directives := segments.filterMap Segment.directive?

end Stencil
