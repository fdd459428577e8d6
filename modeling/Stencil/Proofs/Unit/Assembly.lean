import Mathlib.Data.List.Induction
import Stencil.Unit.Assembly

/-!
# The lines of an assembled program

Where the statements of a dialect stand in the program of a template, whatever else is in it.

* `Draft.Settled`: a draft knows whether its source ends inside a line;
* `foldl_addSegment_settled`: every draft under construction does;
* `assembleSource_literal`: the statement that writes a literal stands on lines of its own;
* `assembleSource_eq`: the program is the binding of the host and what each segment emits.
-/

namespace Stencil

/-! ## Ends of lines -/

theorem endsMidLine_append (before : Bool) (a b : String) :
    endsMidLine before (a ++ b) = endsMidLine (endsMidLine before a) b := by
  rw [endsMidLine, endsMidLine, String.toList_append, List.getLast?_append]
  cases b.toList.getLast? with
  | none => rw [Option.none_or, endsMidLine]
  | some c => rw [Option.some_or]

theorem endsMidLine_newline (before : Bool) : endsMidLine before "\n" = false := rfl

/-- A text that does not end inside a line is empty or ends in a newline. -/
theorem endsMidLine_eq_false_iff {s : String} :
    endsMidLine false s = false ↔ s.toList = [] ∨ s.toList.getLast? = some '\n' := by
  rw [endsMidLine]
  cases h : s.toList.getLast? with
  | none => simp [List.getLast?_eq_none_iff.mp h]
  | some c =>
    have hne : s.toList ≠ [] := by
      intro e
      rw [e] at h
      cases h
    simp [hne]

/-! ## Drafts -/

namespace Draft

/-- A draft that knows whether its source ends inside a line. -/
def Settled (d : Draft) : Prop :=
  d.midLine = endsMidLine false d.source

variable {d : Draft} (dialect : Dialect)

theorem start_settled (text : String) : (start text).Settled := rfl

theorem Settled.append (h : d.Settled) (text : String) : (d.append text).Settled := by
  show endsMidLine d.midLine text = endsMidLine false (d.source ++ text)
  rw [endsMidLine_append, ← h]

/-- The source with its last line ended. -/
def ended (d : Draft) : String :=
  if d.midLine then d.source ++ "\n" else d.source

theorem appendLine_source (d : Draft) (statement : String) :
    (d.appendLine statement).source = d.ended ++ statement ++ "\n" := by
  rw [appendLine, ended]
  split <;> rfl

theorem Settled.appendLine (h : d.Settled) (statement : String) :
    (d.appendLine statement).Settled := by
  rw [Draft.appendLine]
  split
  · exact ((h.append "\n").append statement).append "\n"
  · exact (h.append statement).append "\n"

/-- What stands before a statement on a line of its own is nothing or whole lines. -/
theorem Settled.ended (h : d.Settled) : endsMidLine false d.ended = false := by
  rw [Draft.ended]
  split
  · rw [endsMidLine_append, endsMidLine_newline]
  · rename_i hm
    rw [← h]
    exact Bool.eq_false_iff.mpr hm

theorem Settled.addSegment (h : d.Settled) (seg : Segment) : (d.addSegment dialect seg).Settled := by
  cases seg with
  | literal text =>
    rw [Draft.addSegment]
    split
    · exact h
    · exact h.appendLine _
  | expression code => exact h.appendLine _
  | statement code => exact h.append code
  | directive _ => exact h

/-- Segments only add to a source. -/
theorem addSegment_source (d : Draft) (seg : Segment) :
    ∃ more, (d.addSegment dialect seg).source = d.source ++ more := by
  have hline : ∀ statement, ∃ more, (d.appendLine statement).source = d.source ++ more := by
    intro statement
    rw [appendLine_source, Draft.ended]
    split
    · exact ⟨"\n" ++ statement ++ "\n", by simp only [String.append_assoc]⟩
    · exact ⟨statement ++ "\n", by rw [String.append_assoc]⟩
  cases seg with
  | literal text =>
    rw [addSegment]
    split
    · exact ⟨"", (String.append_empty).symm⟩
    · exact hline _
  | expression code => exact hline _
  | statement code => exact ⟨code, rfl⟩
  | directive _ => exact ⟨"", (String.append_empty).symm⟩

end Draft

section

variable (dialect : Dialect)

theorem foldl_addSegment_settled (segments : List Segment) {d : Draft} (h : d.Settled) :
    (segments.foldl (Draft.addSegment dialect) d).Settled := by
  induction segments generalizing d with
  | nil => exact h
  | cons seg segments ih => exact ih (h.addSegment dialect seg)

theorem foldl_addSegment_source (segments : List Segment) (d : Draft) :
    ∃ more, (segments.foldl (Draft.addSegment dialect) d).source = d.source ++ more := by
  induction segments generalizing d with
  | nil => exact ⟨"", (String.append_empty).symm⟩
  | cons seg segments ih =>
    obtain ⟨a, ha⟩ := Draft.addSegment_source dialect d seg
    obtain ⟨b, hb⟩ := ih (d.addSegment dialect seg)
    exact ⟨a ++ b, by rw [List.foldl_cons, hb, ha, String.append_assoc]⟩

/-- The declaration that binds the host comes first in a program. -/
theorem assembleSource_hostBinding (path : String) (segments : List Segment) :
    ∃ more, assembleSource dialect path segments = dialect.hostBinding path ++ more :=
  foldl_addSegment_source dialect segments _

/-- Whether a segment is a literal that is not blank. -/
def Segment.isText : Segment → Bool
  | .literal text => !Text.allBlank text.toList
  | _ => false

theorem Draft.addSegment_textBegun (d : Draft) (seg : Segment) :
    (d.addSegment dialect seg).textBegun = (d.textBegun || seg.isText) := by
  cases seg with
  | literal text =>
    rw [Draft.addSegment, Segment.isText]
    cases hb : Text.allBlank text.toList <;> cases ht : d.textBegun <;> simp [ht]
  | expression code =>
    show (d.appendLine _).textBegun = (d.textBegun || false)
    rw [Draft.appendLine, Bool.or_false]
    split <;> rfl
  | statement code => exact (Bool.or_false _).symm
  | directive _ => exact (Bool.or_false _).symm

/-- Text has begun as soon as there is a literal that is not blank. -/
theorem foldl_addSegment_textBegun (segments : List Segment) (d : Draft) :
    (segments.foldl (Draft.addSegment dialect) d).textBegun =
      (d.textBegun || segments.any Segment.isText) := by
  induction segments generalizing d with
  | nil => exact (Bool.or_false _).symm
  | cons seg segments ih =>
    rw [List.foldl_cons, ih, Draft.addSegment_textBegun, List.any_cons, Bool.or_assoc]

/-- The statement that writes a literal stands between whole lines, if the literal is not blank or
text has begun before it. -/
theorem assembleSource_literal (path text : String) (before after : List Segment)
    (h : (Segment.literal text).isText || before.any Segment.isText) :
    ∃ a b, endsMidLine false a = false ∧
      assembleSource dialect path (before ++ .literal text :: after) =
        a ++ dialect.writeLiteral text ++ "\n" ++ b := by
  let d := before.foldl (Draft.addSegment dialect) (Draft.start (dialect.hostBinding path))
  have hkept : (!d.textBegun && Text.allBlank text.toList) = false := by
    have hd : d.textBegun = before.any Segment.isText := by
      rw [foldl_addSegment_textBegun]
      exact Bool.false_or _
    rw [hd]
    revert h
    rw [Segment.isText]
    cases Text.allBlank text.toList <;> cases before.any Segment.isText <;> simp
  obtain ⟨b, hb⟩ := foldl_addSegment_source dialect after
    (d.addSegment dialect (.literal text))
  refine ⟨d.ended, b, (foldl_addSegment_settled dialect before (Draft.start_settled _)).ended, ?_⟩
  rw [assembleSource, List.foldl_append, List.foldl_cons, hb, Draft.addSegment, hkept,
    if_neg Bool.false_ne_true, Draft.appendLine_source]

/-! ## Emissions -/

/-- The segments that emit something: no directives, and no blank literals until text has begun. -/
def emitted (textBegun : Bool) : List Segment → List Segment
  | [] => []
  | .literal text :: segments =>
    if !textBegun && Text.allBlank text.toList then emitted textBegun segments
    else .literal text :: emitted true segments
  | .expression code :: segments => .expression code :: emitted textBegun segments
  | .statement code :: segments => .statement code :: emitted textBegun segments
  | .directive _ :: segments => emitted textBegun segments

theorem emitted_sublist (textBegun : Bool) (segments : List Segment) :
    (emitted textBegun segments).Sublist segments := by
  induction segments generalizing textBegun with
  | nil => exact .slnil
  | cons segment segments ih =>
    cases segment with
    | literal text =>
      rw [emitted]
      split
      · exact (ih textBegun).cons _
      · exact (ih true).cons_cons _
    | expression code => exact (ih textBegun).cons_cons _
    | statement code => exact (ih textBegun).cons_cons _
    | directive _ => exact (ih textBegun).cons _

/-- A statement on a line of its own, after a text that ends inside a line or does not. -/
def ownLine (midLine : Bool) (statement : String) : String :=
  (if midLine then "\n" else "") ++ statement ++ "\n"

/-- What segments emit, one after the other, after a text that ends inside a line or does not. -/
def emission (midLine : Bool) : List Segment → String
  | [] => ""
  | .literal text :: segments =>
    ownLine midLine (dialect.writeLiteral text) ++ emission false segments
  | .expression code :: segments =>
    ownLine midLine (dialect.writeExpression code) ++ emission false segments
  | .statement code :: segments => code ++ emission (endsMidLine midLine code) segments
  | .directive _ :: segments => emission midLine segments

theorem Draft.appendLine_eq (d : Draft) (statement : String) :
    d.appendLine statement =
      ⟨d.source ++ ownLine d.midLine statement, false, d.textBegun⟩ := by
  rw [Draft.appendLine, ownLine]
  cases d.midLine <;> simp [Draft.append, endsMidLine_newline, String.append_assoc]

/-- Segments add to a source what they emit. -/
theorem foldl_addSegment_emission (segments : List Segment) (d : Draft) :
    (segments.foldl (Draft.addSegment dialect) d).source =
      d.source ++ emission dialect d.midLine (emitted d.textBegun segments) := by
  induction segments generalizing d with
  | nil => exact String.append_empty.symm
  | cons segment segments ih =>
    rw [List.foldl_cons, ih]
    cases segment with
    | literal text =>
      rw [Draft.addSegment, emitted]
      split
      · rfl
      · rw [Draft.appendLine_eq, emission, String.append_assoc]
    | expression code =>
      rw [Draft.addSegment, Draft.appendLine_eq, emitted, emission, String.append_assoc]
    | statement code => exact String.append_assoc
    | directive _ => rfl

/-- A program is the binding of the host and what each segment emits. -/
theorem assembleSource_eq (path : String) (segments : List Segment) :
    assembleSource dialect path segments = dialect.hostBinding path ++
      emission dialect (endsMidLine false (dialect.hostBinding path)) (emitted false segments) :=
  foldl_addSegment_emission dialect segments _

end

end Stencil
