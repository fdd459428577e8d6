import Stencil.Proofs.Failure.Chain
import Stencil.Proofs.Failure.Trace

/-!
# Reports of chains

A report is a list of rows: for each link a header that starts with its number in brackets, and
below it the lines of its trace behind a margin. No header starts with the margin, so the block of a
link ends in front of the next header, and the links can be told from the report.

* `ChainLink.Legible`: the links that can be told; `legible_causalChain_iff`: when those of an error
  are such links;
* `reportRows`, `toList_renderFrom`: the rows of a report;
* `headerRow_inj`, `trace_eq`: what the header of a link and the lines below it tell;
* `reportRows_cons_inj`: the block of a link is told apart from the blocks after it;
* `reportRows_inj`, `renderChain_unambiguous`: chains with one report are the same chain.
-/

namespace Stencil

open Stencil.Text (Solid)

/-! ## Links -/

/-- A link with the kind of an error and a message of one row. Its trace was not recorded, or is
joined from trimmed lines that are not empty, and is not the one line that stands for a trace that
was not recorded. -/
structure ChainLink.Legible (link : ChainLink) : Prop where
  kind : ∃ e : ErrorValue, link.kind = e.kind
  message : '\n' ∉ link.message.toList
  trace : ∀ trace, link.trace = some trace → ∃ lines, trace = joinLines lines ∧
    (∀ line ∈ lines, Solid line) ∧ lines ≠ [noTrace.toList]

theorem exists_lines_of_splitTrace {text trace : String} (h : (splitTrace text).2 = some trace) :
    ∃ lines, trace = joinLines lines ∧ ∀ line ∈ lines, Solid line := by
  rw [splitTrace] at h
  split at h
  · exact ⟨_, (Option.some.inj h).symm, solid_of_mem_traceLines _⟩
  · cases h

/-- The trace of an error is joined from trimmed lines that are not empty. -/
theorem ErrorValue.exists_lines_of_trace {e : ErrorValue} {trace : String}
    (h : e.describe.trace = some trace) :
    ∃ lines, trace = joinLines lines ∧ ∀ line ∈ lines, Solid line := by
  rw [ErrorValue.describe, ErrorValue.messageAndTrace.eq_def] at h
  split at h
  · exact ⟨_, (Option.some.inj h).symm, solid_of_mem_traceLines _⟩
  · cases h
  · exact exists_lines_of_splitTrace h

/-- What describes an error is legible, unless the message has more than one row or the trace is the
line that stands for none. -/
theorem ErrorValue.legible_describe_iff (e : ErrorValue) :
    e.describe.Legible ↔
      '\n' ∉ e.describe.message.toList ∧ e.describe.trace ≠ some noTrace := by
  constructor
  · intro h
    refine ⟨h.message, fun htrace => ?_⟩
    obtain ⟨lines, hjoin, hsolid, hlines⟩ := h.trace _ htrace
    have hread := lines_joinLines hsolid
    rw [← hjoin] at hread
    exact hlines hread.symm
  · rintro ⟨hmessage, hnone⟩
    refine ⟨⟨e, rfl⟩, hmessage, fun trace htrace => ?_⟩
    obtain ⟨lines, rfl, hsolid⟩ := exists_lines_of_trace htrace
    refine ⟨lines, rfl, hsolid, ?_⟩
    rintro rfl
    exact hnone htrace

theorem legible_causalChain_iff {e : ErrorValue} :
    (∀ link ∈ causalChain e, link.Legible) ↔
      ∀ link ∈ causalChain e, '\n' ∉ link.message.toList ∧ link.trace ≠ some noTrace := by
  rw [causalChain, List.forall_mem_map, List.forall_mem_map]
  exact forall₂_congr fun x _ => x.legible_describe_iff

/-! ## Rows -/

/-- The row that the block of a link starts with. -/
def headerRow (number : Nat) (link : ChainLink) : List Char :=
  '[' :: (Nat.toDigits 10 number ++ "] ".toList ++
    (link.kind.toList ++ ':' :: ' ' :: link.message.toList))

/-- The row of a line of a trace, behind the margin. -/
def traceRow (line : List Char) : List Char :=
  "      at ".toList ++ line

/-- The lines that are shown below the header of a link. -/
def ChainLink.shown (link : ChainLink) : List (List Char) :=
  match link.trace with
  | some trace => Text.lines trace.toList
  | none => [noTrace.toList]

theorem head?_traceRow (line : List Char) : (traceRow line).head? = some ' ' := rfl

theorem newline_notMem_traceRow {line : List Char} (h : '\n' ∉ line) : '\n' ∉ traceRow line := by
  have hmargin : '\n' ∉ "      at ".toList := by decide
  exact fun hmem => (List.mem_append.mp hmem).elim hmargin h

/-- The rows of a report, the first link of which has the given number. -/
def reportRows (number : Nat) : List ChainLink → List (List Char)
  | [] => []
  | link :: rest =>
    headerRow number link :: link.shown.map traceRow ++ reportRows (number + 1) rest

theorem renderLink_eq (number : Nat) (link : ChainLink) :
    renderLink number link =
      "[" ++ toString number ++ "] " ++ link.kind ++ ": " ++ link.message ++ "\n" ++
        String.join (link.shown.map fun line => traceLine (String.ofList line)) := by
  rw [renderLink, ChainLink.shown]
  cases link.trace with
  | some trace => rfl
  | none =>
    rw [List.map_singleton, String.ofList_toList, String.join_cons, String.join_nil,
      String.append_empty]

theorem toList_newline : "\n".toList = ['\n'] := rfl

theorem toList_header (number : Nat) (link : ChainLink) :
    ("[" ++ toString number ++ "] " ++ link.kind ++ ": " ++ link.message).toList =
      headerRow number link := by
  have hopen : "[".toList = ['['] := rfl
  have hdigits : (toString number).toList = Nat.toDigits 10 number := Nat.toList_repr
  have hcolon : ": ".toList = [':', ' '] := rfl
  simp only [String.toList_append, hopen, hdigits, hcolon, headerRow, List.append_assoc,
    List.cons_append, List.nil_append]

theorem toList_traceLine (line : List Char) :
    (traceLine (String.ofList line)).toList = traceRow line ++ ['\n'] := by
  rw [traceLine, String.toList_append, String.toList_append, @String.toList_ofList line,
    toList_newline]
  rfl

/-- A report is its rows, with a line end after each. -/
theorem toList_renderFrom (number : Nat) (links : List ChainLink) :
    (renderFrom number links).toList = (reportRows number links).flatMap (· ++ ['\n']) := by
  induction links generalizing number with
  | nil => rfl
  | cons link rest ih =>
    have hshown : (String.join (link.shown.map fun line => traceLine (String.ofList line))).toList =
        (link.shown.map traceRow).flatMap (· ++ ['\n']) := by
      rw [String.toList_join, List.flatMap_map, List.flatMap_map,
        List.flatMap_congr fun line _ => toList_traceLine line]
    rw [renderFrom, reportRows, renderLink_eq, String.toList_append, String.toList_append,
      String.toList_append, toList_header, toList_newline, hshown, ih, List.flatMap_append,
      List.flatMap_cons]

/-! ## What the rows of a link tell -/

/-- A run of members with a property is told apart from what comes after it, if that does not start
with such a member. -/
theorem run_append_inj {α : Type} {P : α → Prop} {run other rest more : List α}
    (hrun : ∀ x ∈ run, P x) (hother : ∀ x ∈ other, P x) (hrest : ∀ x ∈ rest.head?, ¬ P x)
    (hmore : ∀ x ∈ more.head?, ¬ P x) (heq : run ++ rest = other ++ more) :
    run = other ∧ rest = more := by
  induction run generalizing other with
  | nil =>
    cases other with
    | nil => exact ⟨rfl, heq⟩
    | cons y other =>
      rw [List.nil_append] at heq
      subst heq
      exact absurd (hother y List.mem_cons_self) (hrest y rfl)
  | cons x run ih =>
    cases other with
    | nil =>
      rw [List.nil_append] at heq
      subst heq
      exact absurd (hrun x List.mem_cons_self) (hmore x rfl)
    | cons y other =>
      obtain ⟨rfl, htail⟩ := List.cons.inj heq
      obtain ⟨rfl, hsame⟩ := ih (fun z hz => hrun z (List.mem_cons_of_mem x hz))
        (fun z hz => hother z (List.mem_cons_of_mem x hz)) htail
      exact ⟨rfl, hsame⟩

/-- A kind is a single word. -/
theorem ErrorVariant.isAlpha_of_mem_kind (variant : ErrorVariant) :
    ∀ c ∈ variant.kind.toList, c.isAlpha = true := by
  have hall : variant.kind.toList.all Char.isAlpha = true := by
    cases variant <;> decide
  exact List.all_eq_true.mp hall

namespace ChainLink.Legible

variable {link other : ChainLink}

theorem isAlpha_of_mem_kind (h : link.Legible) : ∀ c ∈ link.kind.toList, c.isAlpha = true := by
  obtain ⟨e, he⟩ := h.kind
  rw [he, e.kind_eq]
  exact e.variant.isAlpha_of_mem_kind

theorem newline_notMem_headerRow (h : link.Legible) (number : Nat) :
    '\n' ∉ headerRow number link := by
  have hdigits : '\n' ∉ Nat.toDigits 10 number := fun hmem =>
    absurd (Nat.isDigit_of_mem_toDigits (by decide) (by decide) hmem) (by decide)
  have hclose : '\n' ∉ "] ".toList := by decide
  have hkind : '\n' ∉ link.kind.toList := fun hmem =>
    absurd (h.isAlpha_of_mem_kind _ hmem) (by decide)
  simp only [headerRow, List.mem_cons, List.mem_append, not_or]
  exact ⟨by decide, ⟨hdigits, hclose⟩, hkind, by decide, by decide, h.message⟩

/-- Below the header stand the lines of the trace, or the line for a trace that was not recorded. -/
theorem shown_cases (h : link.Legible) :
    (link.trace = none ∧ link.shown = [noTrace.toList]) ∨
      ∃ lines, link.trace = some (joinLines lines) ∧ link.shown = lines ∧
        (∀ line ∈ lines, Solid line) ∧ lines ≠ [noTrace.toList] := by
  cases htrace : link.trace with
  | none => exact .inl ⟨rfl, by rw [shown, htrace]⟩
  | some trace =>
    obtain ⟨lines, rfl, hsolid, hlines⟩ := h.trace trace htrace
    refine .inr ⟨lines, rfl, ?_, hsolid, hlines⟩
    rw [shown, htrace]
    exact lines_joinLines hsolid

theorem newline_notMem_shown (h : link.Legible) : ∀ line ∈ link.shown, '\n' ∉ line := by
  intro line hline
  rcases h.shown_cases with ⟨-, hshown⟩ | ⟨lines, -, rfl, hsolid, -⟩
  · rw [hshown] at hline
    rw [List.mem_singleton.mp hline]
    decide
  · exact (hsolid line hline).unbroken

/-- The trace of a link, read from the lines below its header. -/
theorem trace_eq (h : link.Legible) :
    link.trace = if link.shown = [noTrace.toList] then none else some (joinLines link.shown) := by
  rcases h.shown_cases with ⟨htrace, hshown⟩ | ⟨lines, htrace, rfl, -, hlines⟩
  · rw [htrace, if_pos hshown]
  · rw [htrace, if_neg hlines]

/-- A header tells the kind and the message of its link: the kind ends in front of the first
colon. -/
theorem headerRow_inj (h : link.Legible) (ho : other.Legible) {number : Nat}
    (heq : headerRow number link = headerRow number other) :
    link.kind = other.kind ∧ link.message = other.message := by
  -- The number is the same in both, however long it is.
  have hrow := List.append_cancel_left (List.cons.inj heq).2
  have hcolon (message : List Char) :
      ∀ c ∈ (':' :: ' ' :: message).head?, ¬ c.isAlpha = true := by
    rintro c ⟨rfl⟩
    decide
  obtain ⟨hkind, hrest⟩ := run_append_inj h.isAlpha_of_mem_kind ho.isAlpha_of_mem_kind
    (hcolon _) (hcolon _) hrow
  have hmessage := (List.cons.inj (List.cons.inj hrest).2).2
  exact ⟨String.toList_inj.mp hkind, String.toList_inj.mp hmessage⟩

end ChainLink.Legible

/-! ## Chains -/

section

variable {links others rest more : List ChainLink} {link other : ChainLink}

theorem newline_notMem_reportRows (h : ∀ link ∈ links, link.Legible) (number : Nat) :
    ∀ row ∈ reportRows number links, '\n' ∉ row := by
  induction links generalizing number with
  | nil => exact fun row hrow => absurd hrow List.not_mem_nil
  | cons link rest ih =>
    have hlink := h link List.mem_cons_self
    intro row hrow
    rw [reportRows, List.cons_append, List.mem_cons, List.mem_append, List.mem_map] at hrow
    rcases hrow with rfl | ⟨line, hline, rfl⟩ | hrow
    · exact hlink.newline_notMem_headerRow number
    · exact newline_notMem_traceRow (hlink.newline_notMem_shown line hline)
    · exact ih (fun other ho => h other (List.mem_cons_of_mem link ho)) (number + 1) row hrow

/-- The rows below a header stand behind a margin. -/
theorem indented_of_mem_shown : ∀ row ∈ link.shown.map traceRow, row.head? = some ' ' := by
  intro row hrow
  obtain ⟨line, -, rfl⟩ := List.mem_map.mp hrow
  exact head?_traceRow line

/-- The first row of a report is a header, which stands behind none. -/
theorem unindented_of_mem_head? (number : Nat) :
    ∀ row ∈ (reportRows number links).head?, ¬ row.head? = some ' ' := by
  cases links with
  | nil => exact fun row hrow => nomatch hrow
  | cons link rest =>
    rintro row ⟨rfl⟩ hmargin
    exact absurd (Option.some.inj hmargin) (by decide)

/-- The block of a link is told apart from the blocks after it. -/
theorem reportRows_cons_inj (h : link.Legible) (ho : other.Legible) {number : Nat}
    (heq : reportRows number (link :: rest) = reportRows number (other :: more)) :
    link = other ∧ reportRows (number + 1) rest = reportRows (number + 1) more := by
  obtain ⟨hheader, hbelow⟩ := List.cons.inj heq
  -- Below the header, the block goes on as far as rows stand behind the margin.
  obtain ⟨hshown, hafter⟩ := run_append_inj indented_of_mem_shown indented_of_mem_shown
    (unindented_of_mem_head? (number + 1)) (unindented_of_mem_head? (number + 1)) hbelow
  obtain ⟨hkind, hmessage⟩ := h.headerRow_inj ho hheader
  have hmargin : Function.Injective traceRow := fun a b hrow => List.append_cancel_left hrow
  have htrace : link.trace = other.trace := by
    rw [h.trace_eq, ho.trace_eq, hmargin.list_map hshown]
  have hlink : link = other := by
    rw [ChainLink.mk.injEq]
    exact ⟨hkind, hmessage, htrace⟩
  exact ⟨hlink, hafter⟩

/-- Chains with the same rows are the same chain: their first links are the same, and the rows that
are left have the same numbers again. -/
theorem reportRows_inj (h : ∀ link ∈ links, link.Legible) (ho : ∀ link ∈ others, link.Legible)
    {number : Nat} (heq : reportRows number links = reportRows number others) : links = others := by
  induction links generalizing others number with
  | nil =>
    cases others with
    | nil => rfl
    | cons other more => cases heq
  | cons link rest ih =>
    cases others with
    | nil => cases heq
    | cons other more =>
      obtain ⟨rfl, hafter⟩ := reportRows_cons_inj (h link List.mem_cons_self)
        (ho other List.mem_cons_self) heq
      rw [ih (fun x hx => h x (List.mem_cons_of_mem link hx))
        (fun x hx => ho x (List.mem_cons_of_mem link hx)) hafter]

/-- A report is unambiguous: two chains of legible links with one report are the same chain. So no
link, message or line of a trace is lost, runs into the next one or goes to another link, and a
trace without lines is told apart from one that was not recorded. -/
theorem renderChain_unambiguous (h : ∀ link ∈ links, link.Legible)
    (ho : ∀ link ∈ others, link.Legible) :
    renderChain links = renderChain others ↔ links = others := by
  constructor
  · intro hreport
    have hrows := congrArg String.toList hreport
    rw [renderChain, renderChain, toList_renderFrom, toList_renderFrom] at hrows
    -- No row has a line end in it, so the text gives the rows back.
    exact reportRows_inj h ho (Text.flatMap_append_inj (newline_notMem_reportRows h 1)
      (newline_notMem_reportRows ho 1) hrows)
  · rintro rfl
    rfl

end

/-- A trace of two lines, one like the line for a trace that was not recorded and one like a
header. -/
def tracedFailure : ErrorValue :=
  .plain "a: b\nstack traceback:\n\t<no trace>\n\t[2] Error: c"

/-- What those lines look like: an error without a trace, caused by one with an empty trace. -/
def causedFailure : ErrorValue :=
  .wrapped "a: b" (.plain "c\nstack traceback:")

theorem causalChain_tracedFailure :
    causalChain tracedFailure = [⟨"Error", "a: b", some "<no trace>\n[2] Error: c"⟩] := by
  rw [causalChain, ErrorValue.withCauses_of_none rfl]
  decide

theorem causalChain_causedFailure :
    causalChain causedFailure = [⟨"Error", "a: b", none⟩, ⟨"Error", "c", some ""⟩] := by
  rw [causalChain, ErrorValue.withCauses_of_some rfl, ErrorValue.withCauses_of_none rfl]
  decide

theorem renderChain_unambiguous_lookalikes :
    (∀ link ∈ causalChain tracedFailure, link.Legible) ∧
      (∀ link ∈ causalChain causedFailure, link.Legible) ∧
      renderChain (causalChain tracedFailure) ≠ renderChain (causalChain causedFailure) := by
  have htraced : ∀ link ∈ causalChain tracedFailure, link.Legible := by
    rw [legible_causalChain_iff, causalChain_tracedFailure]
    decide
  have hcaused : ∀ link ∈ causalChain causedFailure, link.Legible := by
    rw [legible_causalChain_iff, causalChain_causedFailure]
    decide
  refine ⟨htraced, hcaused, fun hreport => ?_⟩
  have hsame := (renderChain_unambiguous htraced hcaused).mp hreport
  rw [causalChain_tracedFailure, causalChain_causedFailure] at hsame
  exact absurd hsame (by decide)

/-- A trace of the one line that stands for none is not told apart from none. -/
example : renderChain [⟨"Error", "a", some noTrace⟩] = renderChain [⟨"Error", "a", none⟩] := by
  decide

/-- Nor is a message of two rows from a message with a trace. -/
example :
    renderChain [⟨"Error", "a\n      at b", some ""⟩] = renderChain [⟨"Error", "a", some "b"⟩] := by
  decide

end Stencil
