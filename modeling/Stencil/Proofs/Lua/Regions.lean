import Stencil.Markup.Parser
import Stencil.Proofs.Lua.Lexing
import Stencil.Proofs.Lua.Reading
import Stencil.Proofs.Unit.Assembly

/-!
# Regions of a generated program

Whether the tokens of a program are those of its regions, one region after the other. Statements
that write stand on lines of their own, so only code that is copied can join what follows it: the
code of a statement another such code, and the code of an expression the parenthesis after it.

* `regionWords`: the tokens of what a segment emits;
* `Separated`: nothing that copied code ends with goes on in what follows;
* `assemble_words`: the tokens of a program whose regions are separated;
* `spelled_writeExpression_iff`: when the call of an expression is closed;
* `regions_join`: programs whose regions are not separated.
-/

namespace Stencil.Lua

open Text (utf8 utf8_append utf8_eq_nil_iff)

/-! ## Generated statements -/

/-- What reads to the end of a source in every context is the spelling of the source. -/
theorem reads_spelled {source : String} {ts : List Word}
    (h : ∀ k, Reads (utf8 source.toList ++ k) ts k) (k : List UInt8) :
    Reads (utf8 source.toList ++ k) (spelled source) k := by
  have hlone := h []
  rw [List.append_nil] at hlone
  rw [(Lexes.complete hlone).2]
  exact h k

theorem reads_open (k : List UInt8) :
    Reads (utf8 "t4.write(".toList ++ k) (spelled "t4.write(") k := by
  have hname : ∀ k, scanBare 1 (utf8 "t4.write(".toList ++ k) =
      some (some (.name (bytesOf "t4"), bytesOf "t4"), utf8 ".write(".toList ++ k) := fun _ => rfl
  have hdot : ∀ k, scanBare 1 (utf8 ".write(".toList ++ k) =
      some (some (.mark .dot, bytesOf "."), utf8 "write(".toList ++ k) := fun _ => rfl
  have hwrite : ∀ k, scanBare 1 (utf8 "write(".toList ++ k) =
      some (some (.name (bytesOf "write"), bytesOf "write"), utf8 "(".toList ++ k) := fun _ => rfl
  have hparen : ∀ k, scanBare 1 (utf8 "(".toList ++ k) =
      some (some (.mark .leftParen, bytesOf "("), k) := fun _ => rfl
  exact reads_spelled (fun k =>
    .token (hname k) (.token (hdot k) (.token (hwrite k) (.token (hparen k) (.done k))))) k

theorem reads_close (k : List UInt8) : Reads (utf8 ")".toList ++ k) (spelled ")") k := by
  have hparen : ∀ k, scanBare 1 (utf8 ")".toList ++ k) =
      some (some (.mark .rightParen, bytesOf ")"), k) := fun _ => rfl
  exact reads_spelled (fun k => .token (hparen k) (.done k)) k

/-- A quoted text is one token, whatever follows it. -/
theorem reads_quote (s : String) (k : List UInt8) :
    Reads (utf8 (quote s).toList ++ k) (spelled (quote s)) k := by
  have hstring : ∀ k, scanBare 1 (utf8 (quote s).toList ++ k) =
      some (some (.string (utf8 s.toList).toByteArray,
        (0x22 :: (utf8 s.toList ++ [0x22])).toByteArray), k) := by
    intro k
    rw [← toList_bytesOf, toList_bytesOf_quote]
    show (scanQuoted 0x22 1 (quoteTail s ++ k)).bare = _
    rw [scanQuoted, readQuoted_quote]
    rfl
  exact reads_spelled (fun k => .token (hstring k) (.done k)) k

/-- The statement that writes a literal is complete. -/
theorem lexes_writeLiteral (text : String) :
    Lexes (utf8 (dialect.writeLiteral text).toList) (spelled (dialect.writeLiteral text)) := by
  have hcall : Lexes (utf8 (dialect.writeLiteral text).toList)
      (spelled "t4.write(" ++ (spelled (quote text) ++ spelled ")")) := by
    show Lexes (utf8 ("t4.write(" ++ quote text ++ ")").toList) _
    rw [String.toList_append, String.toList_append, List.append_assoc, utf8_append, utf8_append]
    have hclose := reads_close []
    rw [List.append_nil] at hclose
    exact (reads_open _).trans ((reads_quote text _).trans hclose)
  exact hcall.complete.1.lexes

/-- The statement that writes the value of an expression is complete, if the code of the expression
is and does not take in the parenthesis after it. -/
theorem lexes_writeExpression {code : String} (h : Complete code)
    (hc : ¬ EndsInLineComment (utf8 code.toList)) :
    Lexes (utf8 (dialect.writeExpression code).toList)
      (spelled "t4.write(" ++ spelled code ++ spelled ")") := by
  show Lexes (utf8 ("t4.write(" ++ code ++ ")").toList) _
  rw [String.toList_append, String.toList_append, List.append_assoc, utf8_append, utf8_append,
    List.append_assoc]
  have hclose := reads_close []
  rw [List.append_nil] at hclose
  exact (reads_open _).trans ((h.lexes.follow (h.lexes.apart_close hc) []).trans hclose)

/-- The statement that writes the value of an expression is closed by the parenthesis after the code
of the expression exactly if the code does not end in a comment. -/
theorem spelled_writeExpression_iff {code : String} (h : Complete code) :
    spelled (dialect.writeExpression code) = spelled "t4.write(" ++ spelled code ++ spelled ")" ↔
      ¬ EndsInLineComment (utf8 code.toList) := by
  refine ⟨fun hclosed hc => ?_, fun hc => (lexes_writeExpression h hc).complete.2⟩
  have hopen : Lexes (utf8 (dialect.writeExpression code).toList)
      (spelled "t4.write(" ++ spelled code) := by
    show Lexes (utf8 ("t4.write(" ++ code ++ ")").toList) _
    rw [String.toList_append, String.toList_append, List.append_assoc, utf8_append, utf8_append]
    exact (reads_open _).trans (h.lexes.swallow hc)
  rw [hopen.complete.2, List.self_eq_append_right] at hclosed
  exact absurd (congrArg List.length hclosed) (by decide)

/-- The declaration that binds the host is complete. -/
theorem complete_hostBinding (path : String) : Complete (dialect.hostBinding path) := by
  have htokens := tokens_writes path []
  rw [List.flatMap_nil, List.append_nil] at htokens
  rw [Complete, toList_bytesOf_hostBinding, htokens, List.map_append, List.getLast?_append]
  rfl

theorem endsMidLine_hostBinding (path : String) :
    endsMidLine false (dialect.hostBinding path) = false := by
  show endsMidLine false ("local Host <const> = t4.host(" ++ quote path ++ (")" ++ "\n")) = false
  rw [endsMidLine_append, endsMidLine_append, endsMidLine_newline]

/-! ## Regions -/

/-- The code of a segment. -/
def code? : Segment → Option String
  | .expression code => some code
  | .statement code => some code
  | _ => none

/-- The tokens of what a segment emits. -/
def regionWords : Segment → List Word
  | .literal text => spelled (dialect.writeLiteral text)
  | .expression code => spelled "t4.write(" ++ spelled code ++ spelled ")"
  | .statement code => spelled code
  | .directive _ => []

/-- The first byte of the code that stands right after a text, if segments emit some there. -/
def copiedNext : List Segment → Option UInt8
  | .statement code :: segments => (utf8 code.toList).head?.or (copiedNext segments)
  | .directive _ :: segments => copiedNext segments
  | _ => none

/-- Nothing that copied code ends with goes on in what follows it. -/
def Separated : List Segment → Prop
  | .statement code :: segments =>
    (∀ b ∈ copiedNext segments, isNewline b = true ∨ Apart (utf8 code.toList) b) ∧
      Separated segments
  | .expression code :: segments =>
    ¬ EndsInLineComment (utf8 code.toList) ∧ Separated segments
  | _ :: segments => Separated segments
  | [] => True

theorem utf8_ownLine (midLine : Bool) (statement more : String) :
    utf8 (ownLine midLine statement ++ more).toList =
      (if midLine then [0x0A] else []) ++
        (utf8 statement.toList ++ 0x0A :: utf8 more.toList) := by
  rw [ownLine, String.toList_append, String.toList_append, String.toList_append, utf8_append,
    utf8_append, utf8_append, List.append_assoc, List.append_assoc]
  cases midLine <;> rfl

/-- A statement on a line of its own, before any other source. -/
theorem lexes_ownLine {midLine : Bool} {statement more : String} {ts us : List Word}
    (h : Lexes (utf8 statement.toList) ts) (hmore : Lexes (utf8 more.toList) us) :
    Lexes (utf8 (ownLine midLine statement ++ more).toList) (ts ++ us) := by
  have hline : Lexes (utf8 statement.toList ++ 0x0A :: utf8 more.toList) (ts ++ us) :=
    h.append_newline rfl (hmore.newline rfl)
  rw [utf8_ownLine]
  cases midLine with
  | false => exact hline
  | true => exact hline.newline rfl

/-- A text that does not end inside a line is empty or ends in a line end. -/
theorem isNewline_of_endsMidLine {midLine : Bool} {code : String}
    (h : endsMidLine midLine code = false) (b : UInt8)
    (hb : b ∈ (utf8 code.toList).getLast?) : isNewline b = true := by
  rw [endsMidLine] at h
  cases hlast : code.toList.getLast? with
  | none =>
    rw [List.getLast?_eq_none_iff.mp hlast] at hb
    cases hb
  | some c =>
    rw [hlast] at h
    have hc : c = '\n' := by simpa using h
    obtain ⟨start, hstart⟩ := List.getLast?_eq_some_iff.mp hlast
    rw [hstart, hc, utf8_append, List.getLast?_append] at hb
    cases hb
    rfl

/-- What segments emit after a text: its tokens, and how it starts if the text ends in a line. -/
theorem lexes_emission {segments : List Segment}
    (hcomplete : ∀ code ∈ segments.filterMap code?, Complete code)
    (hseparated : Separated segments) (midLine : Bool) :
    Lexes (utf8 (emission dialect midLine segments).toList) (segments.flatMap regionWords) ∧
      (midLine = true → ∀ b ∈ (utf8 (emission dialect midLine segments).toList).head?,
        isNewline b = true ∨ b ∈ copiedNext segments) := by
  induction segments generalizing midLine with
  | nil => exact ⟨.done [], fun _ b hb => absurd hb nofun⟩
  | cons segment segments ih =>
    -- A statement on a line of its own starts with the end of the line before.
    have hstart : ∀ statement more, midLine = true →
        ∀ b ∈ (utf8 (ownLine midLine statement ++ more).toList).head?, isNewline b = true := by
      rintro statement more rfl b hb
      rw [utf8_ownLine] at hb
      cases hb
      rfl
    cases segment with
    | literal text =>
      exact ⟨lexes_ownLine (lexes_writeLiteral text) (ih hcomplete hseparated false).1,
        fun hmid b hb => .inl (hstart _ _ hmid b hb)⟩
    | expression code =>
      obtain ⟨hcode, hcodes⟩ := List.forall_mem_cons.mp hcomplete
      exact ⟨lexes_ownLine (lexes_writeExpression hcode hseparated.1)
          (ih hcodes hseparated.2 false).1,
        fun hmid b hb => .inl (hstart _ _ hmid b hb)⟩
    | directive d => exact ih hcomplete hseparated midLine
    | statement code =>
      obtain ⟨hcode, hcodes⟩ := List.forall_mem_cons.mp hcomplete
      replace hcode := hcode.lexes
      obtain ⟨hmore, hfirst⟩ := ih hcodes hseparated.2 (endsMidLine midLine code)
      rw [emission, String.toList_append, utf8_append, List.flatMap_cons]
      refine ⟨?_, fun hmid b hb => ?_⟩
      · cases hbytes : utf8 (emission dialect (endsMidLine midLine code) segments).toList with
        | nil =>
          rw [hbytes] at hmore
          rw [lexes_nil hmore, List.append_nil, List.append_nil]
          exact hcode
        | cons b k =>
          rw [hbytes] at hmore hfirst
          cases hmid : endsMidLine midLine code with
          | false => exact hcode.append_ended (isNewline_of_endsMidLine hmid) hmore
          | true =>
            have hnext : isNewline b = true ∨ Apart (utf8 code.toList) b :=
              (hfirst hmid b rfl).elim .inl (hseparated.1 b)
            rcases hnext with hnewline | hapart
            · exact hcode.append_newline hnewline hmore
            · exact (hcode.follow hapart k).trans hmore
      · rw [List.head?_append] at hb
        rw [copiedNext]
        cases hhead : (utf8 code.toList).head? with
        | some c =>
          rw [hhead] at hb
          exact .inr hb
        | none =>
          rw [hhead] at hb
          have hempty : code.toList = [] :=
            utf8_eq_nil_iff.mp (List.head?_eq_none_iff.mp hhead)
          have hsame : endsMidLine midLine code = midLine := by
            rw [endsMidLine, hempty]
            rfl
          rw [hsame] at hfirst hb
          exact hfirst hmid b hb

/-- The tokens of a program are those of the binding of the host and of each region, in order, if
the code of every region is complete and the regions are separated. -/
theorem assemble_words (path : String) (markup : Markup)
    (hcomplete : ∀ code ∈ markup.segments.filterMap code?, Complete code)
    (hseparated : Separated (emitted false markup.segments)) :
    Complete (assemble dialect path markup).source ∧
      spelled (assemble dialect path markup).source =
        spelled (dialect.hostBinding path) ++
          (emitted false markup.segments).flatMap regionWords := by
  refine Lexes.complete ?_
  show Lexes (utf8 (assembleSource dialect path markup.segments).toList) _
  rw [assembleSource_eq, String.toList_append, utf8_append]
  refine (complete_hostBinding path).lexes.append_ended
    (isNewline_of_endsMidLine (endsMidLine_hostBinding path)) ?_
  have hcodes := ((emitted_sublist false markup.segments).filterMap code?).subset
  exact (lexes_emission (fun code hcode => hcomplete code (hcodes hcode)) hseparated _).1

/-- Text, statements and an expression, of which nothing joins what follows. -/
def parted : Markup :=
  .ofSegments [.literal "a", .statement " f()", .directive ⟨"k", "v"⟩, .statement "g()",
    .expression "x"]

theorem assemble_words_parted :
    Separated (emitted false parted.segments) ∧
      Complete (assemble dialect "/t4/a.tt" parted).source ∧
        spelled (assemble dialect "/t4/a.tt" parted).source =
          spelled (dialect.hostBinding "/t4/a.tt") ++
            (emitted false parted.segments).flatMap regionWords := by
  have hcomplete : ∀ code ∈ parted.segments.filterMap code?, Complete code :=
    List.forall_mem_cons.mpr
      ⟨rfl, List.forall_mem_cons.mpr ⟨rfl, List.forall_mem_singleton.mpr rfl⟩⟩
  have hseparated : Separated (emitted false parted.segments) := by
    refine ⟨fun b hb => .inr ?_, nofun, fun hc => absurd hc.infix (by decide), trivial⟩
    cases hb
    decide +kernel
  exact ⟨hseparated, assemble_words "/t4/a.tt" parted hcomplete hseparated⟩

/-- A text that parses and in which the code of every region is complete, but whose program does not
have the tokens of its regions in order. -/
def Joins (path text : String) : Prop :=
  ∃ markup, Markup.parse text = .ok markup ∧
    (∀ code ∈ markup.segments.filterMap code?, Complete code) ∧
    spelled (assemble dialect path markup).source ≠
      spelled (dialect.hostBinding path) ++
        (emitted false markup.segments).flatMap regionWords

theorem joins_of_length {path text : String} (markup : Markup)
    (hparse : Markup.parse text = .ok markup)
    (hcomplete : ∀ code ∈ markup.segments.filterMap code?, Complete code)
    (hlength : (spelled (assemble dialect path markup).source).length ≠
      (spelled (dialect.hostBinding path) ++
        (emitted false markup.segments).flatMap regionWords).length) : Joins path text :=
  ⟨markup, hparse, hcomplete, fun h => hlength (congrArg List.length h)⟩

/-- Two statements join at a number, or in a comment, and an expression joins the parenthesis after
it in a comment. -/
theorem regions_join :
    Joins "/t4/a.tt" "<# x = 1#><#y = 2 write(x, y) #>" ∧
      Joins "/t4/a.tt" "<# write(1) -- one #><# write(2) #>" ∧
      Joins "/t4/a.tt" "<#= 1 -- one #>" := by
  refine ⟨?_, ?_, ?_⟩
  · exact joins_of_length (.ofSegments [.statement " x = 1", .statement "y = 2 write(x, y) "])
      (by decide +kernel) (List.forall_mem_cons.mpr ⟨rfl, List.forall_mem_singleton.mpr rfl⟩)
      (by decide +kernel)
  · exact joins_of_length
      (.ofSegments [.statement " write(1) -- one ", .statement " write(2) "])
      (by decide +kernel) (List.forall_mem_cons.mpr ⟨rfl, List.forall_mem_singleton.mpr rfl⟩)
      (by decide +kernel)
  · exact joins_of_length (.ofSegments [.expression "1 -- one"])
      (by decide +kernel) (List.forall_mem_singleton.mpr rfl) (by decide +kernel)

end Stencil.Lua
