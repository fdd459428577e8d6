import Mathlib.Data.List.Chain
import Stencil.Proofs.Markup.Append
import Stencil.Proofs.Text.Trim

/-!
# What templates parse to

Every parsed template obeys the same few rules, and every list of segments that obeys them is one:
it can be written as a template, with blanks and quotes where reading takes them off again.

* `Segment.WellFormed`, `Markup.WellFormed`: the rules;
* `Segment.source`, `Markup.source`: a parsed template as a text;
* `Layout.Cuts.wellFormed`: the segments of a text obey the rules;
* `parse_source_segment`: a segment that obeys them is read back;
* `parse_image`: the parsed templates are those that obey the rules.
-/

namespace Stencil

open Text (cut cut_eq_some_iff cut_eq_none_iff trim Bare)

/-! ## The rules -/

/-- A text without an opening marker. -/
def Unopened (s : String) : Prop :=
  ¬ openMarker.toList <:+: s.toList

/-- A text without a closing marker. -/
def Unclosed (s : String) : Prop :=
  ¬ closeMarker.toList <:+: s.toList

/-- What a segment of a parsed template can be. -/
def Segment.WellFormed : Segment → Prop
  | .literal text => text ≠ "" ∧ Unopened text
  | .expression code => Unopened code ∧ Unclosed code ∧ Text.trimmed code = code
  | .statement code => Unopened code ∧ Unclosed code ∧ code.toList.head? ≠ some '@' ∧
    code.toList.head? ≠ some '=' ∧ code.toList.getLast? ≠ some '<'
  | .directive d => Unopened d.key ∧ Unclosed d.key ∧ Unopened d.value ∧ Unclosed d.value ∧
    Text.trimmed d.key = d.key ∧ '=' ∉ d.key.toList

/-- What a parsed template can be: segments, no two literals among them next to each other, and
their directives. -/
structure Markup.WellFormed (m : Markup) : Prop where
  each : ∀ seg ∈ m.segments, seg.WellFormed
  apart : m.segments.IsChain fun a b => ¬ (a.IsLiteral ∧ b.IsLiteral)
  directives : m.directives = m.segments.filterMap Segment.directive?

/-! ## Written templates -/

/-- The code of a segment, as it stands between markers. A blank keeps an expression off its
closing marker, and the value of a directive stands in quotes. -/
def Segment.code : Segment → String
  | .literal text => text
  | .expression code => "=" ++ code ++ " "
  | .statement code => code
  | .directive d => "@" ++ d.key ++ "=\"" ++ d.value ++ "\""

/-- A segment as a piece of a template. -/
def Segment.source : Segment → String
  | .literal text => text
  | seg => openMarker ++ seg.code ++ closeMarker

/-- A parsed template as a text. -/
def Markup.source (m : Markup) : String :=
  String.join (m.segments.map Segment.source)

/-! ## Every parsed template obeys the rules -/

/-- A part of a text has no marker that the text does not have. -/
theorem not_infix_of_within {m part cs : List Char} (h : ¬ m <:+: cs) (hpart : part <:+: cs) :
    ¬ m <:+: part :=
  fun hm => h (hm.trans hpart)

theorem unquote_within (value : List Char) : unquote value <:+: value := by
  fun_cases unquote value with
  | case1 inner _ => exact (List.dropLast_prefix inner).isInfix.trans (List.suffix_cons _ _).isInfix
  | case2 inner _ => exact (List.suffix_cons _ _).isInfix
  | case3 => exact List.infix_rfl

theorem trimmed_ofList (cs : List Char) :
    Text.trimmed (String.ofList cs) = String.ofList (trim cs) := by
  rw [Text.trimmed, String.toList_ofList]

/-- Key and value of a directive are parts of its body. -/
theorem parseChars_cases (body : List Char) :
    ∃ key value, Directive.parseChars body = ⟨String.ofList key, String.ofList value⟩ ∧
      key <:+: body ∧ value <:+: body ∧ trim key = key ∧ '=' ∉ key := by
  have hbody := Text.trim_within body
  have hsingle : ∀ cs : List Char, ['='] <:+: cs ↔ '=' ∈ cs := fun cs =>
    List.singleton_infix_iff '=' cs
  rw [Directive.parseChars]
  cases hcut : cut ['='] (trim body) with
  | none =>
    rw [cut_eq_none_iff (by decide), hsingle] at hcut
    exact ⟨trim body, [], rfl, hbody, List.nil_infix, Text.trim_trim body, hcut⟩
  | some parts =>
    obtain ⟨key, value⟩ := parts
    obtain ⟨hsplit, hkey⟩ := (cut_eq_some_iff (by decide)).mp hcut
    rw [List.append_assoc] at hsplit
    have hkey : '=' ∉ key := by simpa [hsingle] using hkey
    have hpart : key <:+: trim body := hsplit ▸ (List.prefix_append _ _).isInfix
    have hvalue : value <:+: trim body := hsplit ▸ ⟨key ++ ['='], [], by simp⟩
    refine ⟨trim key, unquote (trim value), rfl, ((Text.trim_within key).trans hpart).trans hbody,
      (((unquote_within _).trans (Text.trim_within value)).trans hvalue).trans hbody,
      Text.trim_trim key, fun hmem => hkey ((Text.trim_within key).subset hmem)⟩

/-- The segment of a code obeys the rules, if no marker stands in the code or across its end. -/
theorem wellFormed_classify {code : List Char} (hopen : ¬ openMarker.toList <:+: code ++ ['#'])
    (hclose : ¬ closeMarker.toList <:+: code) : (classify code).WellFormed := by
  have hcode : ¬ openMarker.toList <:+: code :=
    not_infix_of_within hopen (List.prefix_append _ _).isInfix
  have hpart : ∀ {part}, part <:+: code →
      Unopened (String.ofList part) ∧ Unclosed (String.ofList part) := by
    intro part hpart
    rw [Unopened, Unclosed, String.toList_ofList]
    exact ⟨not_infix_of_within hcode hpart, not_infix_of_within hclose hpart⟩
  fun_cases classify code with
  | case1 body =>
    obtain ⟨key, value, hparse, hkey, hvalue, htrim, hno⟩ := parseChars_cases body
    have hbody : body <:+: '@' :: body := (List.suffix_cons _ _).isInfix
    rw [hparse]
    refine ⟨(hpart (hkey.trans hbody)).1, (hpart (hkey.trans hbody)).2,
      (hpart (hvalue.trans hbody)).1, (hpart (hvalue.trans hbody)).2, ?_, ?_⟩
    · rw [trimmed_ofList, htrim]
    · rwa [String.toList_ofList]
  | case2 code =>
    have htrim : trim code <:+: '=' :: code :=
      (Text.trim_within code).trans (List.suffix_cons _ _).isInfix
    exact ⟨(hpart htrim).1, (hpart htrim).2, by rw [trimmed_ofList, Text.trim_trim]⟩
  | case3 code hdirective hexpression =>
    refine ⟨(hpart List.infix_rfl).1, (hpart List.infix_rfl).2, ?_, ?_, ?_⟩
    · rw [String.toList_ofList]
      intro h
      obtain ⟨rest, rfl⟩ := List.head?_eq_some_iff.mp h
      exact hdirective rest rfl
    · rw [String.toList_ofList]
      intro h
      obtain ⟨rest, rfl⟩ := List.head?_eq_some_iff.mp h
      exact hexpression rest rfl
    · rw [String.toList_ofList]
      intro h
      obtain ⟨init, rfl⟩ := List.getLast?_eq_some_iff.mp h
      exact hopen ⟨init, [], by simp [openMarker_toList]⟩

theorem wellFormed_literalSegments {text : List Char} (hopen : ¬ openMarker.toList <:+: text) :
    ∀ seg ∈ literalSegments text, seg.WellFormed := by
  intro seg hseg
  by_cases hne : text = []
  · rw [hne] at hseg
    cases hseg
  · rw [literalSegments_of_ne_nil hne, List.mem_singleton] at hseg
    rw [hseg]
    refine ⟨fun h => hne (String.ofList_eq_empty_iff.mp h), ?_⟩
    rwa [Unopened, String.toList_ofList]

/-- A text before something that is no literal is a literal apart from others. -/
theorem isChain_literalSegments (text : List Char) {rest : List Segment}
    (h : rest.IsChain fun a b => ¬ (a.IsLiteral ∧ b.IsLiteral))
    (hhead : ∀ seg ∈ rest.head?, ¬ seg.IsLiteral) :
    (literalSegments text ++ rest).IsChain fun a b => ¬ (a.IsLiteral ∧ b.IsLiteral) := by
  by_cases hne : text = []
  · rw [hne]
    exact h
  · rw [literalSegments_of_ne_nil hne]
    exact h.cons fun seg hseg hboth => hhead seg hseg hboth.2

theorem isChain_regions (regions : List (List Char × List Char)) :
    (regions.flatMap fun region => classify region.1 :: literalSegments region.2).IsChain
      fun a b => ¬ (a.IsLiteral ∧ b.IsLiteral) := by
  induction regions with
  | nil => exact .nil
  | cons region regions ih =>
    rw [List.flatMap_cons, List.cons_append]
    exact (isChain_literalSegments region.2 ih (not_isLiteral_head_regions regions)).cons
      fun _ _ hboth => not_isLiteral_classify _ hboth.1

theorem Layout.Cuts.wellFormed {d : Layout} {cs : List Char} (h : d.Cuts cs) :
    (Markup.ofSegments d.segments).WellFormed where
  each seg hseg := by
    rcases List.mem_append.mp hseg with hseg | hseg
    · exact wellFormed_literalSegments h.lead_free seg hseg
    · obtain ⟨⟨code, text⟩, hregion, hseg⟩ := List.mem_flatMap.mp hseg
      have hfree := h.region_free _ hregion
      rcases List.mem_cons.mp hseg with rfl | hseg
      · exact wellFormed_classify (not_infix_of_within hfree
          ⟨[], '>' :: text, by simp [closeMarker_toList]⟩) (h.code_free _ hregion)
      · exact wellFormed_literalSegments (not_infix_of_within hfree
          (List.suffix_append _ text).isInfix) seg hseg
  apart := isChain_literalSegments d.lead (isChain_regions d.regions)
    (not_isLiteral_head_regions d.regions)
  directives := rfl

/-! ## Everything that obeys them can be written -/

/-- A text with no marker in it. -/
structure Unmarked (cs : List Char) : Prop where
  unopened : ¬ openMarker.toList <:+: cs
  unclosed : ¬ closeMarker.toList <:+: cs

/-- A text of one character has no marker in it. -/
theorem Unmarked.single (c : Char) : Unmarked [c] where
  unopened h := absurd h.length_le (by simp [openMarker_toList])
  unclosed h := absurd h.length_le (by simp [closeMarker_toList])

/-- Behind a character that starts no marker there is no marker across the place. -/
theorem Unmarked.cons {c : Char} {cs : List Char} (h : Unmarked cs) (hopen : c ≠ '<')
    (hclose : c ≠ '#') : Unmarked (c :: cs) where
  unopened := not_pair_infix_append (Unmarked.single c).unopened h.unopened
    fun hmeet => hopen (Option.some.inj hmeet.1)
  unclosed := not_pair_infix_append (Unmarked.single c).unclosed h.unclosed
    fun hmeet => hclose (Option.some.inj hmeet.1)

/-- Before a character that ends no marker there is no marker across the place. -/
theorem Unmarked.append_cons {a b : List Char} {c : Char} (ha : Unmarked a)
    (hb : Unmarked (c :: b)) (hopen : c ≠ '#') (hclose : c ≠ '>') : Unmarked (a ++ c :: b) where
  unopened := not_pair_infix_append ha.unopened hb.unopened
    fun hmeet => hopen (Option.some.inj hmeet.2)
  unclosed := not_pair_infix_append ha.unclosed hb.unclosed
    fun hmeet => hclose (Option.some.inj hmeet.2)

/-- The body of a directive, as it is written. -/
def Directive.body (d : Directive) : List Char :=
  d.key.toList ++ '=' :: '"' :: (d.value.toList ++ ['"'])

theorem toList_code_expression (code : String) :
    (Segment.expression code).code.toList = '=' :: (code.toList ++ [' ']) := by
  simp [Segment.code]

theorem toList_code_directive (d : Directive) :
    (Segment.directive d).code.toList = '@' :: d.body := by
  simp [Segment.code, Directive.body]

/-- No marker stands in the code of a segment, or across its end. -/
theorem Segment.WellFormed.code {seg : Segment} (h : seg.WellFormed) (hl : ¬ seg.IsLiteral) :
    Unmarked seg.code.toList ∧ seg.code.toList.getLast? ≠ some '<' := by
  cases seg with
  | literal text => exact absurd trivial hl
  | expression code =>
    have hcode : Unmarked code.toList := ⟨h.1, h.2.1⟩
    rw [toList_code_expression]
    refine ⟨(hcode.append_cons (.single ' ') (by decide) (by decide)).cons (by decide)
      (by decide), ?_⟩
    rw [← List.cons_append, List.getLast?_concat]
    decide
  | statement code => exact ⟨⟨h.1, h.2.1⟩, h.2.2.2.2⟩
  | directive d =>
    obtain ⟨hkey, hkey', hvalue, hvalue', -, -⟩ := h
    have hquoted : Unmarked ('=' :: '"' :: (d.value.toList ++ ['"'])) :=
      ((Unmarked.append_cons ⟨hvalue, hvalue'⟩ (.single '"') (by decide) (by decide)).cons
        (by decide) (by decide)).cons (by decide) (by decide)
    have hbody : Unmarked d.body :=
      Unmarked.append_cons ⟨hkey, hkey'⟩ hquoted (by decide) (by decide)
    rw [toList_code_directive]
    refine ⟨hbody.cons (by decide) (by decide), ?_⟩
    rw [show '@' :: d.body = ('@' :: (d.key.toList ++ '=' :: '"' :: d.value.toList)) ++ ['"'] by
      simp [Directive.body], List.getLast?_concat]
    decide

theorem trimmed_eq_self_iff {s : String} : Text.trimmed s = s ↔ Bare s.toList := by
  rw [Text.trimmed, ← String.toList_inj, String.toList_ofList, Text.trim_eq_self_iff]

/-- A value in quotes loses the quotes and nothing else. -/
theorem unquote_trim_quoted (value : List Char) :
    unquote (trim ('"' :: (value ++ ['"']))) = value := by
  have hbare : Bare ('"' :: (value ++ ['"'])) := by
    refine ⟨fun c hc => ?_, fun c hc => ?_⟩
    · cases hc
      decide
    · rw [← List.cons_append, List.getLast?_concat] at hc
      cases hc
      decide
  rw [hbare.trim_eq, unquote, if_pos List.getLast?_concat, List.dropLast_concat]

/-- A directive is read back from the body that is written for it. -/
theorem parseChars_body {d : Directive} (hkey : Bare d.key.toList) (hno : '=' ∉ d.key.toList) :
    Directive.parseChars d.body = d := by
  have hbare : Bare d.body := by
    refine ⟨fun c hc => ?_, fun c hc => ?_⟩
    · rw [Directive.body, List.head?_append] at hc
      cases hhead : d.key.toList.head? with
      | none =>
        rw [hhead] at hc
        cases hc
        decide
      | some first =>
        rw [hhead] at hc
        cases hc
        exact hkey.head _ hhead
    · rw [Directive.body, ← List.cons_append, ← List.cons_append, ← List.append_assoc,
        List.getLast?_concat] at hc
      cases hc
      decide
  have hcut : cut ['='] d.body = some (d.key.toList, '"' :: (d.value.toList ++ ['"'])) := by
    refine (cut_eq_some_iff (by decide)).mpr ⟨by simp [Directive.body], ?_⟩
    rw [List.dropLast_singleton, List.append_nil, List.singleton_infix_iff]
    exact hno
  rw [Directive.parseChars, hbare.trim_eq, hcut]
  simp only [hkey.trim_eq, unquote_trim_quoted, String.ofList_toList]

/-- The code of a segment is read as the segment. -/
theorem classify_code {seg : Segment} (h : seg.WellFormed) (hl : ¬ seg.IsLiteral) :
    classify seg.code.toList = seg := by
  cases seg with
  | literal text => exact absurd trivial hl
  | expression code =>
    have hblank : trim (code.toList ++ [' ']) = trim code.toList :=
      Text.trim_concat_blank _ (by decide)
    rw [toList_code_expression, classify, hblank]
    exact congrArg Segment.expression h.2.2
  | statement code =>
    obtain ⟨-, -, hdirective, hexpression, -⟩ := h
    rw [Segment.code, classify.eq_3, String.ofList_toList]
    · rintro body hbody
      exact hdirective (by rw [hbody]; rfl)
    · rintro body hbody
      exact hexpression (by rw [hbody]; rfl)
  | directive d =>
    obtain ⟨-, -, -, -, hkey, hno⟩ := h
    rw [toList_code_directive, classify, parseChars_body (trimmed_eq_self_iff.mp hkey) hno]

theorem toList_source {seg : Segment} (hl : ¬ seg.IsLiteral) :
    seg.source.toList = openMarker.toList ++ (seg.code.toList ++ closeMarker.toList) := by
  cases seg with
  | literal text => exact absurd trivial hl
  | expression _ | statement _ | directive _ =>
    rw [Segment.source, String.toList_append, String.toList_append, List.append_assoc]
    exact nofun

/-- A segment that obeys the rules is read back from what is written for it. -/
theorem parse_source_segment {seg : Segment} (h : seg.WellFormed) :
    Markup.parse seg.source = .ok (.ofSegments [seg]) := by
  refine parse_eq_ok_segments.mpr ?_
  by_cases hl : seg.IsLiteral
  · cases seg with
    | expression code | statement code | directive d => exact hl.elim
    | literal text =>
      obtain ⟨hne, hopen⟩ := h
      have hne : text.toList ≠ [] := by rwa [ne_eq, String.toList_eq_nil_iff]
      refine ⟨⟨text.toList, []⟩, ⟨List.append_nil _, hopen, nofun, nofun⟩, ?_⟩
      rw [Layout.segments, literalSegments_of_ne_nil hne, String.ofList_toList]
      rfl
  · obtain ⟨⟨hopen, hclose⟩, hlast⟩ := h.code hl
    refine ⟨⟨[], [(seg.code.toList, [])]⟩, ⟨?_, ?_, ?_, ?_⟩, ?_⟩
    · rw [toList_source hl]
      simp [Layout.text]
    · exact fun h => absurd h.length_le (by simp [openMarker_toList])
    · rw [List.forall_mem_singleton, List.append_nil]
      exact not_pair_infix_append hopen (by decide) fun hmeet => hlast hmeet.1
    · rwa [List.forall_mem_singleton]
    · rw [Layout.segments, List.flatMap_singleton, classify_code h hl]
      rfl

/-- A template does not go on with the second character of an opening marker behind a segment that
stands apart from what follows. -/
theorem not_meetInMarker_source {seg : Segment} {rest : List Segment}
    (h : ∀ next ∈ rest.head?, ¬ (seg.IsLiteral ∧ next.IsLiteral)) :
    ¬ MeetInMarker seg.source.toList (String.join (rest.map Segment.source)).toList := by
  rintro ⟨hlast, hhead⟩
  by_cases hl : seg.IsLiteral
  · cases rest with
    | nil => cases hhead
    | cons next rest =>
      have hnext : ¬ next.IsLiteral := fun hnext => h next rfl ⟨hl, hnext⟩
      rw [List.map_cons, String.join_cons, String.toList_append, toList_source hnext] at hhead
      cases hhead
  · rw [toList_source hl, ← List.append_assoc, closeMarker_toList, List.getLast?_append] at hlast
    cases hlast

/-- Segments that obey the rules, one apart from the next, are read back from what is written for
them. -/
theorem parse_source_segments {segments : List Segment} (heach : ∀ seg ∈ segments, seg.WellFormed)
    (hapart : segments.IsChain fun a b => ¬ (a.IsLiteral ∧ b.IsLiteral)) :
    Markup.parse (String.join (segments.map Segment.source)) = .ok (.ofSegments segments) := by
  induction segments with
  | nil => rfl
  | cons seg rest ih =>
    obtain ⟨hseg, hrest⟩ := List.forall_mem_cons.mp heach
    obtain ⟨hnext, hapart⟩ := List.isChain_cons.mp hapart
    have hjoin : joinSegments [seg] rest = seg :: rest := by
      by_cases hl : seg.IsLiteral
      · exact joinSegments_of_head? [seg] fun next hmem hboth => hnext next hmem ⟨hl, hboth⟩
      · exact joinSegments_of_getLast? (by simpa using hl) rest
    rw [List.map_cons, String.join_cons, parse_append_ok (parse_source_segment hseg)
      (ih hrest hapart) (not_meetInMarker_source hnext)]
    simp only [Markup.ofSegments, hjoin, ← List.filterMap_append, List.singleton_append]

theorem Markup.WellFormed.parse_source {m : Markup} (h : m.WellFormed) :
    Markup.parse m.source = .ok m := by
  rw [Markup.source, parse_source_segments h.each h.apart]
  exact congrArg _ (congrArg _ h.directives.symm)

/-! ## The parsed templates -/

/-- A parsed template is what some text is read as, exactly if it obeys the rules, and then it is
read back from the text written for it. -/
theorem parse_image (m : Markup) : ((∃ s, Markup.parse s = .ok m) ↔ m.WellFormed) ∧
    (m.WellFormed ↔ Markup.parse m.source = .ok m) := by
  have hwell : ∀ s, Markup.parse s = .ok m → m.WellFormed := by
    intro s hs
    obtain ⟨d, hd, rfl⟩ := parse_eq_ok_segments.mp hs
    exact hd.wellFormed
  exact ⟨⟨fun ⟨s, hs⟩ => hwell s hs, fun h => ⟨m.source, h.parse_source⟩⟩,
    Markup.WellFormed.parse_source, hwell m.source⟩

example : Markup.source ⟨[.literal "a<", .expression "b<", .directive ⟨"k", "\"v"⟩, .statement "#"],
    [⟨"k", "\"v"⟩]⟩ = "a<<#=b< #><#@k=\"\"v\"#><###>" := by
  decide

end Stencil
