import Mathlib.Data.List.Infix
import Stencil.Proofs.Unit.Assembly

/-!
# The pieces of a program

A program is the binding of the host value and then one piece for each segment that is left, in
order. Which segments are left goes by the segments before each of them, and what a piece is goes
by the text before it.

* `Dropped`, `survivors`: the segments that leave no trace, and those that are left;
* `PieceOf`: the piece of a segment, and `Pieced`: those of a list of segments;
* `emission_pieced`: what segments emit falls into pieces;
* `assemble_pieces`: what a program is made of, whatever the dialect.
-/

namespace Stencil

open Text (allBlank)

/-! ## The segments that are left -/

/-- Whether a segment leaves no trace in a program, by the segments before it: a literal does not as
long as it and all literals before it are blank, and a directive never does. -/
def Dropped (before : List Segment) : Segment → Prop
  | .literal text =>
    allBlank text.toList = true ∧ ∀ t, Segment.literal t ∈ before → allBlank t.toList = true
  | .directive _ => True
  | .expression _ | .statement _ => False

theorem any_isText_eq_false_iff {segments : List Segment} :
    segments.any Segment.isText = false ↔
      ∀ t, Segment.literal t ∈ segments → allBlank t.toList = true := by
  rw [List.any_eq_false]
  constructor
  · intro h t ht
    simpa [Segment.isText] using h _ ht
  · intro h segment hs
    cases segment with
    | literal t => simpa [Segment.isText] using h t hs
    | expression code => exact Bool.false_ne_true
    | statement code => exact Bool.false_ne_true
    | directive d => exact Bool.false_ne_true

theorem dropped_literal_iff {before : List Segment} {text : String} :
    Dropped before (.literal text) ↔
      (!before.any Segment.isText && allBlank text.toList) = true := by
  rw [Dropped, ← any_isText_eq_false_iff, Bool.and_eq_true, Bool.not_eq_true', and_comm]

instance (before : List Segment) (segment : Segment) : Decidable (Dropped before segment) :=
  match segment with
  | .literal _ => decidable_of_iff _ dropped_literal_iff.symm
  | .directive _ => .isTrue trivial
  | .expression _ | .statement _ => .isFalse id

/-- The segments that are left, each judged by the segments before it. -/
def survivors (segments : List Segment) : List Segment :=
  ((segments.zip segments.inits).filter fun s => ¬ Dropped s.2 s.1).map Prod.fst

/-- The segments that are left after others are those that emit something after them. -/
theorem survivors_after (before segments : List Segment) :
    ((segments.zip (segments.inits.map (before ++ ·))).filter fun s => ¬ Dropped s.2 s.1).map
        Prod.fst = emitted (before.any Segment.isText) segments := by
  induction segments generalizing before with
  | nil => rfl
  | cons segment rest ih =>
    -- The segment stands after `before`, and the others after `before` and the segment.
    have hinits : (segment :: rest).inits.map (before ++ ·) =
        before :: rest.inits.map ((before ++ [segment]) ++ ·) := by
      simp [List.map_map, Function.comp_def]
    have ih := ih (before ++ [segment])
    rw [List.any_append, List.any_cons, List.any_nil, Bool.or_false] at ih
    rw [hinits, List.zip_cons_cons, List.filter_cons]
    have hcode : ∀ seg : Segment, seg.isText = false →
        (before.any Segment.isText || seg.isText) = before.any Segment.isText := by
      intro seg h
      rw [h, Bool.or_false]
    cases segment with
    | literal text =>
      simp only [dropped_literal_iff, emitted, Segment.isText] at ih ⊢
      by_cases hd : (!before.any Segment.isText && allBlank text.toList) = true
      · have hbegun : (before.any Segment.isText || !allBlank text.toList) =
            before.any Segment.isText := by
          rw [Bool.and_eq_true] at hd
          rw [hd.2, Bool.not_true, Bool.or_false]
        simp only [hd, hbegun] at ih ⊢
        exact ih
      · have hbegun : (before.any Segment.isText || !allBlank text.toList) = true := by
          revert hd
          cases before.any Segment.isText <;> cases allBlank text.toList <;> simp
        simp only [hd, hbegun] at ih ⊢
        exact congrArg _ ih
    | expression code => exact congrArg _ (ih.trans (by rw [hcode (.expression code) rfl]))
    | statement code => exact congrArg _ (ih.trans (by rw [hcode (.statement code) rfl]))
    | directive d => exact ih.trans (by rw [hcode (.directive d) rfl]; rfl)

theorem survivors_eq (segments : List Segment) : survivors segments = emitted false segments := by
  have h := survivors_after [] segments
  simp only [List.nil_append, List.map_id'] at h
  exact h

example : survivors [.literal " ", .statement "x = 1", .literal "\n", .literal "a", .literal " "] =
    [.statement "x = 1", .literal "a", .literal " "] := by
  decide +kernel

theorem emitted_append_directive (textBegun : Bool) (a : List Segment) (d : Directive)
    (b : List Segment) :
    emitted textBegun (a ++ .directive d :: b) = emitted textBegun (a ++ b) := by
  induction a generalizing textBegun with
  | nil => rfl
  | cons segment a ih =>
    cases segment with
    | literal text =>
      rw [List.cons_append, List.cons_append, emitted, emitted, ih, ih]
    | expression code => rw [List.cons_append, List.cons_append, emitted, emitted, ih]
    | statement code => rw [List.cons_append, List.cons_append, emitted, emitted, ih]
    | directive _ => exact ih textBegun

/-! ## Pieces -/

/-- Where a line starts: at the start of a text, and after a newline. -/
def LineStart (soFar : String) : Prop :=
  soFar = "" ∨ soFar.toList.getLast? = some '\n'

instance (soFar : String) : Decidable (LineStart soFar) :=
  inferInstanceAs (Decidable (_ ∨ _))

theorem lineStart_iff {soFar : String} : LineStart soFar ↔ endsMidLine false soFar = false := by
  rw [endsMidLine_eq_false_iff, LineStart, String.toList_eq_nil_iff]

/-- What ends the line that a text ends in. -/
def lineBreak (soFar : String) : String :=
  if LineStart soFar then "" else "\n"

theorem lineStart_append_lineBreak (soFar : String) : LineStart (soFar ++ lineBreak soFar) := by
  rw [lineBreak]
  split
  · rename_i h
    rw [String.append_empty]
    exact h
  · right
    simp

/-- The statement that writes a segment out, if it is written out. -/
def Segment.written (dialect : Dialect) : Segment → Option String
  | .literal text => some (dialect.writeLiteral text)
  | .expression code => some (dialect.writeExpression code)
  | .statement _ | .directive _ => none

/-- The piece of a segment, by the text before it. -/
inductive PieceOf (dialect : Dialect) (soFar : String) : Segment → String → Prop
  /-- Statements are copied as they stand. -/
  | copied (code : String) : PieceOf dialect soFar (.statement code) code
  /-- What writes a segment out stands on a line of its own. -/
  | line {segment : Segment} {statement : String}
      (h : segment.written dialect = some statement) :
      PieceOf dialect soFar segment (lineBreak soFar ++ statement ++ "\n")

section

variable {dialect : Dialect}

theorem PieceOf.whole_line {soFar piece statement : String} {segment : Segment}
    (h : PieceOf dialect soFar segment piece) (hs : segment.written dialect = some statement) :
    ∃ lines, LineStart lines ∧ soFar ++ piece = lines ++ statement ++ "\n" := by
  cases h with
  | copied code => cases hs
  | line h =>
    cases h.symm.trans hs
    refine ⟨soFar ++ lineBreak soFar, lineStart_append_lineBreak soFar, ?_⟩
    simp only [String.append_assoc]

theorem ownLine_eq (soFar statement : String) :
    ownLine (endsMidLine false soFar) statement = lineBreak soFar ++ statement ++ "\n" := by
  rw [ownLine, lineBreak]
  by_cases h : LineStart soFar
  · rw [if_pos h, lineStart_iff.mp h, if_neg Bool.false_ne_true]
  · have hm : endsMidLine false soFar = true :=
      Bool.not_eq_false _ ▸ (not_congr lineStart_iff).mp h
    rw [if_neg h, hm, if_pos rfl]

/-- One piece for each segment, in order. -/
structure Pieced (dialect : Dialect) (soFar : String) (segments : List Segment)
    (pieces : List String) : Prop where
  length : pieces.length = segments.length
  piece : ∀ i segment piece, segments[i]? = some segment → pieces[i]? = some piece →
    PieceOf dialect (soFar ++ String.join (pieces.take i)) segment piece

theorem Pieced.nil (soFar : String) : Pieced dialect soFar [] [] where
  length := rfl
  piece _ _ _ h _ := by cases h

theorem Pieced.cons {soFar piece : String} {segment : Segment} {segments : List Segment}
    {pieces : List String} (h : PieceOf dialect soFar segment piece)
    (hs : Pieced dialect (soFar ++ piece) segments pieces) :
    Pieced dialect soFar (segment :: segments) (piece :: pieces) where
  length := congrArg (· + 1) hs.length
  piece i seg p hseg hp := by
    cases i with
    | zero =>
      cases hseg
      cases hp
      rw [List.take_zero, String.join_nil, String.append_empty]
      exact h
    | succ i =>
      rw [List.take_succ_cons, String.join_cons, ← String.append_assoc]
      exact hs.piece i seg p hseg hp

/-- What segments emit falls into pieces, if none of them is a directive. -/
theorem emission_pieced (segments : List Segment)
    (hd : ∀ d, Segment.directive d ∉ segments) (soFar : String) :
    ∃ pieces, emission dialect (endsMidLine false soFar) segments = String.join pieces ∧
      Pieced dialect soFar segments pieces := by
  induction segments generalizing soFar with
  | nil => exact ⟨[], rfl, .nil soFar⟩
  | cons segment segments ih =>
    have ih := ih fun d h => hd d (List.mem_cons_of_mem _ h)
    -- A piece that stands on lines of its own ends the line it stands on.
    have hline : ∀ statement, segment.written dialect = some statement →
        ∃ pieces, ownLine (endsMidLine false soFar) statement ++ emission dialect false segments =
          String.join pieces ∧ Pieced dialect soFar (segment :: segments) pieces := by
      intro statement hs
      obtain ⟨pieces, he, hp⟩ := ih (soFar ++ (lineBreak soFar ++ statement ++ "\n"))
      rw [← String.append_assoc, endsMidLine_append, endsMidLine_newline] at he
      exact ⟨_ :: pieces, by rw [ownLine_eq, he, String.join_cons], hp.cons (.line hs)⟩
    cases segment with
    | literal text => exact hline _ rfl
    | expression code => exact hline _ rfl
    | statement code =>
      obtain ⟨pieces, he, hp⟩ := ih (soFar ++ code)
      rw [endsMidLine_append] at he
      exact ⟨code :: pieces, by rw [emission, he, String.join_cons], hp.cons (.copied code)⟩
    | directive d => exact absurd List.mem_cons_self (hd d)

end

theorem directive_notMem_survivors (segments : List Segment) (d : Directive) :
    Segment.directive d ∉ survivors segments := by
  intro h
  obtain ⟨⟨seg, before⟩, hmem, rfl⟩ := List.mem_map.mp h
  have hleft := (List.mem_filter.mp hmem).2
  exact of_decide_eq_true hleft trivial

/-! ## Programs -/

/-- A program starts with the binding of the host, and goes on with one piece for each segment that
is left and nothing else. Whatever writes a segment out starts a line and ends it. Directives can be
left out without a trace. -/
theorem assemble_pieces (dialect : Dialect) (path : String) (markup : Markup) :
    (∃ pieces,
      (assemble dialect path markup).source =
        dialect.hostBinding path ++ String.join pieces ∧
      pieces.length = (survivors markup.segments).length ∧
      ∀ i segment piece, (survivors markup.segments)[i]? = some segment →
        pieces[i]? = some piece →
        let soFar := dialect.hostBinding path ++ String.join (pieces.take i)
        PieceOf dialect soFar segment piece ∧
        ∀ statement, segment.written dialect = some statement →
          ∃ lines, LineStart lines ∧ soFar ++ piece = lines ++ statement ++ "\n") ∧
    ∀ before d after directives directives',
      (assemble dialect path ⟨before ++ .directive d :: after, directives⟩).source =
        (assemble dialect path ⟨before ++ after, directives'⟩).source := by
  constructor
  · obtain ⟨pieces, he, hp⟩ := @emission_pieced dialect (survivors markup.segments)
      (directive_notMem_survivors markup.segments) (dialect.hostBinding path)
    refine ⟨pieces, ?_, hp.length, ?_⟩
    · rw [assemble, assembleSource_eq, ← survivors_eq, he]
    · intro i segment piece hs hi
      have h := hp.piece i segment piece hs hi
      exact ⟨h, fun statement hw => h.whole_line hw⟩
  · intro before d after directives directives'
    rw [assemble, assemble, assembleSource_eq, assembleSource_eq, emitted_append_directive]

end Stencil
