import Stencil.Proofs.Markup.Layout
import Stencil.Proofs.Text.Bytes

/-!
# Templates one after the other

Two templates put one after the other are read as each of them alone, as long as no opening marker
stands across the place where they meet: the regions of the first keep their codes, and the text
after the last of them goes on into the text before the first region of the second.

* `Layout.append`, `Layout.Cuts.append`: the layout of both;
* `Layout.Breaks`, `parse_eq_error_iff`: a text does not parse exactly if a region without an end
  follows a layout;
* `Layout.Breaks.append`, `Layout.Breaks.extend`: where it stands once text is put before or after;
* `parse_append`: what the two templates come to.
-/

namespace Stencil

open Text (cut cut_eq_none_iff)

/-! ## Lengths in bytes -/

theorem byteLength_eq (cs : List Char) : byteLength cs = (Text.utf8 cs).length := by
  have hfold : ∀ n, cs.foldl (fun n c => n + c.utf8Size) n = n + (Text.utf8 cs).length := by
    induction cs with
    | nil => exact fun n => rfl
    | cons c cs ih =>
      intro n
      rw [List.foldl_cons, ih, Text.utf8_cons, List.length_append, String.length_utf8EncodeChar,
        Nat.add_assoc]
  rw [byteLength, hfold, Nat.zero_add]

theorem byteLength_append (a b : List Char) :
    byteLength (a ++ b) = byteLength a + byteLength b := by
  rw [byteLength_eq, byteLength_eq, byteLength_eq, Text.utf8_append, List.length_append]

theorem byteLength_toList (s : String) : byteLength s.toList = s.utf8ByteSize := by
  rw [byteLength_eq, ← Text.toList_toUTF8, String.toUTF8_eq_toByteArray, ← String.size_toByteArray]
  exact Array.length_toList

/-- A number of bytes is the length of one beginning of a text at most. -/
theorem eq_of_byteLength_eq {a b cs : List Char} (ha : a <+: cs) (hb : b <+: cs)
    (h : byteLength a = byteLength b) : a = b := by
  have hone : ∀ {a b : List Char}, a <+: b → byteLength a = byteLength b → a = b := by
    rintro a _ ⟨c, rfl⟩ h
    rw [byteLength_append, byteLength_eq c] at h
    have hc : Text.utf8 c = [] := List.eq_nil_of_length_eq_zero (by omega)
    rw [Text.utf8_eq_nil_iff.mp hc, List.append_nil]
  rcases List.prefix_or_prefix_of_prefix ha hb with hab | hba
  · exact hone hab h
  · exact (hone hba h.symm).symm

/-! ## Where two texts meet -/

/-- An opening marker stands across the end of one text and the start of another. -/
def MeetInMarker (a b : List Char) : Prop :=
  a.getLast? = some '<' ∧ b.head? = some '#'

instance (a b : List Char) : Decidable (MeetInMarker a b) :=
  inferInstanceAs (Decidable (_ ∧ _))

/-- A marker of two characters stands in one of two texts, or across the place where they meet. -/
theorem not_pair_infix_append {x y : Char} {a b : List Char} (ha : ¬ [x, y] <:+: a)
    (hb : ¬ [x, y] <:+: b) (hmeet : ¬ (a.getLast? = some x ∧ b.head? = some y)) :
    ¬ [x, y] <:+: a ++ b := by
  rw [List.infix_append_iff]
  rintro (h | h | ⟨first, second, heq, hfirst, hsecond⟩)
  · exact ha h
  · exact hb h
  · -- The marker is cut in front of, between or after its characters.
    rcases first with _ | ⟨u, _ | ⟨v, first⟩⟩
    · rw [List.nil_append] at heq
      exact hb (heq ▸ hsecond).isInfix
    · obtain ⟨rfl, rfl⟩ := List.cons.inj heq
      obtain ⟨init, rfl⟩ := hfirst
      obtain ⟨rest, rfl⟩ := hsecond
      exact hmeet ⟨List.getLast?_concat, rfl⟩
    · have hall : x = u ∧ y = v ∧ first = [] ∧ second = [] := by simpa using heq
      obtain ⟨rfl, rfl, rfl, -⟩ := hall
      exact ha hfirst.isInfix

theorem not_open_infix_append {a b : List Char} (ha : ¬ openMarker.toList <:+: a)
    (hb : ¬ openMarker.toList <:+: b) (hmeet : ¬ MeetInMarker a b) :
    ¬ openMarker.toList <:+: a ++ b :=
  not_pair_infix_append ha hb hmeet

/-! ## Segments that meet -/

/-- Whether a segment is a literal. -/
def Segment.IsLiteral : Segment → Prop
  | .literal _ => True
  | .expression _ | .statement _ | .directive _ => False

theorem not_isLiteral_classify (code : List Char) : ¬ (classify code).IsLiteral := by
  fun_cases classify code <;> exact id

theorem literalSegments_of_ne_nil {text : List Char} (h : text ≠ []) :
    literalSegments text = [.literal (String.ofList text)] :=
  if_neg (by rwa [List.isEmpty_iff])

/-- The segments of two templates one after the other: a literal at the end of the first and one at
the start of the second are one literal. -/
def joinSegments (a b : List Segment) : List Segment :=
  match a.getLast?, b with
  | some (.literal s), .literal t :: rest => a.dropLast ++ .literal (s ++ t) :: rest
  | _, _ => a ++ b

theorem joinSegments_literal (a b : List Segment) (s t : String) :
    joinSegments (a ++ [.literal s]) (.literal t :: b) = a ++ .literal (s ++ t) :: b := by
  rw [joinSegments.eq_def, List.getLast?_concat, List.dropLast_concat]

theorem joinSegments_of_getLast? {a : List Segment} (h : ∀ seg ∈ a.getLast?, ¬ seg.IsLiteral)
    (b : List Segment) : joinSegments a b = a ++ b := by
  rw [joinSegments.eq_def]
  split
  · rename_i hlast
    exact absurd trivial (h _ hlast)
  · rfl

theorem joinSegments_of_head? {b : List Segment} (a : List Segment)
    (h : ∀ seg ∈ b.head?, ¬ seg.IsLiteral) : joinSegments a b = a ++ b := by
  rw [joinSegments.eq_def]
  split
  · exact absurd trivial (h _ rfl)
  · rfl

/-- Texts that meet are one literal, unless one of them is empty. -/
theorem joinSegments_literalSegments {a b : List Segment} (x y : List Char)
    (ha : ∀ seg ∈ a.getLast?, ¬ seg.IsLiteral) (hb : ∀ seg ∈ b.head?, ¬ seg.IsLiteral) :
    joinSegments (a ++ literalSegments x) (literalSegments y ++ b) =
      a ++ (literalSegments (x ++ y) ++ b) := by
  have hnone : literalSegments [] = [] := rfl
  by_cases hx : x = []
  · rw [hx, hnone, List.append_nil, List.nil_append, joinSegments_of_getLast? ha]
  · by_cases hy : y = []
    · rw [hy, hnone, List.append_nil, List.nil_append, joinSegments_of_head? _ hb,
        List.append_assoc]
    · rw [literalSegments_of_ne_nil hx, literalSegments_of_ne_nil hy,
        literalSegments_of_ne_nil (List.append_ne_nil_of_left_ne_nil hx y), String.ofList_append]
      exact joinSegments_literal a b _ _

/-- Joining segments loses no directive. -/
theorem directives_joinSegments (a b : List Segment) :
    (joinSegments a b).filterMap Segment.directive? =
      a.filterMap Segment.directive? ++ b.filterMap Segment.directive? := by
  rw [joinSegments.eq_def]
  split
  · rename_i s t rest hlast
    obtain ⟨init, rfl⟩ := List.getLast?_eq_some_iff.mp hlast
    rw [List.dropLast_concat, List.filterMap_append, List.filterMap_append]
    simp only [List.filterMap_cons, Segment.directive?, List.filterMap_nil, List.append_nil]
  · exact List.filterMap_append

/-- What regions stand for does not start with a literal. -/
theorem not_isLiteral_head_regions (regions : List (List Char × List Char)) :
    ∀ seg ∈ (regions.flatMap fun region =>
      classify region.1 :: literalSegments region.2).head?, ¬ seg.IsLiteral := by
  cases regions with
  | nil => exact nofun
  | cons region rest =>
    intro seg hseg
    cases hseg
    exact not_isLiteral_classify _

/-! ## Layouts one after the other -/

namespace Layout

/-- The segments of a layout. -/
def segments (d : Layout) : List Segment :=
  literalSegments d.lead ++
    d.regions.flatMap fun region => classify region.1 :: literalSegments region.2

/-- The layout of two templates one after the other. -/
def append (d e : Layout) : Layout :=
  match d.regions.getLast? with
  | none => ⟨d.lead ++ e.lead, e.regions⟩
  | some last => ⟨d.lead, d.regions.dropLast ++ (last.1, last.2 ++ e.lead) :: e.regions⟩

variable {d e : Layout} {s t : List Char}

theorem append_plain (lead : List Char) (e : Layout) :
    append ⟨lead, []⟩ e = ⟨lead ++ e.lead, e.regions⟩ := rfl

theorem append_concat (lead : List Char) (regions : List (List Char × List Char))
    (code text : List Char) (e : Layout) :
    append ⟨lead, regions ++ [(code, text)]⟩ e =
      ⟨lead, regions ++ (code, text ++ e.lead) :: e.regions⟩ := by
  rw [append, List.getLast?_concat, List.dropLast_concat]

/-- A layout has no regions, or a last one. -/
theorem cases_last (d : Layout) : (∃ lead, d = ⟨lead, []⟩) ∨
    ∃ lead regions code text, d = ⟨lead, regions ++ [(code, text)]⟩ := by
  obtain ⟨lead, regions⟩ := d
  rcases List.eq_nil_or_concat regions with rfl | ⟨regions, ⟨code, text⟩, rfl⟩
  · exact .inl ⟨lead, rfl⟩
  · exact .inr ⟨lead, regions, code, text, by rw [List.concat_eq_append]⟩

/-- The text of a layout ends with its last region. -/
theorem text_concat (lead : List Char) (regions : List (List Char × List Char))
    (code text : List Char) :
    Layout.text ⟨lead, regions ++ [(code, text)]⟩ =
      Layout.text ⟨lead, regions⟩ ++ openMarker.toList ++ closed (code, text) := by
  simp only [Layout.text, closed, List.flatMap_append, List.flatMap_cons, List.flatMap_nil,
    List.append_nil, List.append_assoc]

theorem text_append (d e : Layout) : (d.append e).text = d.text ++ e.text := by
  rcases d.cases_last with ⟨lead, rfl⟩ | ⟨lead, regions, code, text, rfl⟩
  · simp only [append_plain, Layout.text, List.flatMap_nil, List.append_nil, List.append_assoc]
  · simp only [append_concat, Layout.text, List.flatMap_append, List.flatMap_cons, List.flatMap_nil,
      List.append_nil, List.append_assoc]

/-! ## Both layouts -/

/-- The text of the second layout starts as the text before its first region does. -/
theorem not_meetInMarker_lead {a : List Char} (h : ¬ MeetInMarker a e.text) :
    ¬ MeetInMarker a e.lead := by
  rintro ⟨ha, he⟩
  obtain ⟨rest, hlead⟩ := List.head?_eq_some_iff.mp he
  exact h ⟨ha, by rw [Layout.text, hlead]; rfl⟩

/-- Two layouts one after the other cut both texts. -/
theorem Cuts.append (hd : d.Cuts s) (he : e.Cuts t) (hmeet : ¬ MeetInMarker s t) :
    (d.append e).Cuts (s ++ t) := by
  obtain ⟨rfl, hlead, hregions, hcodes⟩ := hd
  obtain ⟨rfl, hlead', hregions', hcodes'⟩ := he
  have hmeet := not_meetInMarker_lead hmeet
  have htext := text_append d e
  rcases d.cases_last with ⟨lead, rfl⟩ | ⟨lead, regions, code, text, rfl⟩
  · rw [append_plain] at htext ⊢
    rw [Layout.text, List.flatMap_nil, List.append_nil] at hmeet
    exact ⟨htext, not_open_infix_append hlead hlead' hmeet, hregions', hcodes'⟩
  · -- The text of the last region goes on into the text before the first region that follows.
    rw [append_concat] at htext ⊢
    rw [List.forall_mem_append, List.forall_mem_singleton] at hregions hcodes
    have hclosed : ¬ MeetInMarker (closed (code, text)) e.lead := by
      rintro ⟨hlast, hhead⟩
      refine hmeet ⟨?_, hhead⟩
      rw [text_concat, List.getLast?_append, hlast, Option.some_or]
    have hjoined := not_open_infix_append hregions.2 hlead' hclosed
    rw [List.append_assoc] at hjoined
    exact ⟨htext, hlead, List.forall_mem_append.mpr ⟨hregions.1, List.forall_mem_cons.mpr
      ⟨hjoined, hregions'⟩⟩, List.forall_mem_append.mpr ⟨hcodes.1, List.forall_mem_cons.mpr
      ⟨hcodes.2, hcodes'⟩⟩⟩

theorem segments_append (d e : Layout) :
    (d.append e).segments = joinSegments d.segments e.segments := by
  have hhead := not_isLiteral_head_regions e.regions
  rcases d.cases_last with ⟨lead, rfl⟩ | ⟨lead, regions, code, text, rfl⟩
  · have hjoin := joinSegments_literalSegments (a := []) lead e.lead nofun hhead
    rw [append_plain]
    simp only [segments, List.flatMap_nil, List.append_nil]
    exact hjoin.symm
  · have hlast : ∀ seg ∈ (literalSegments lead ++ (regions.flatMap fun region =>
        classify region.1 :: literalSegments region.2) ++ [classify code]).getLast?,
          ¬ seg.IsLiteral := by
      intro seg hseg
      rw [List.getLast?_concat] at hseg
      cases hseg
      exact not_isLiteral_classify code
    have hjoin := joinSegments_literalSegments text e.lead hlast hhead
    rw [append_concat]
    simp only [segments, List.flatMap_append, List.flatMap_cons, List.flatMap_nil, List.append_nil,
      List.append_assoc, List.cons_append] at hjoin ⊢
    exact hjoin.symm

end Layout

/-! ## Regions without an end -/

theorem cut_close_eq_none_iff {piece : List Char} :
    cut ['#', '>'] piece = none ↔ ¬ closeMarker.toList <:+: piece :=
  cut_eq_none_iff (by decide)

theorem length_joinOpened_cons (piece : List Char) (pieces : List (List Char)) :
    (joinOpened (piece :: pieces)).length = 2 + piece.length + (joinOpened pieces).length := by
  rw [joinOpened_cons, List.length_cons, List.length_cons, List.length_append]
  omega

/-- The first piece without an end is the error, and the pieces before it are regions. -/
theorem regionSegments_eq_error_iff {start n : Nat} {pieces : List (List Char)} :
    regionSegments start pieces = .error n ↔
      ∃ (regions : List (List Char × List Char)) (piece : List Char) (rest : List (List Char)),
        pieces = regions.map closed ++ piece :: rest ∧
        (∀ region ∈ regions, ¬ closeMarker.toList <:+: region.1) ∧
        ¬ closeMarker.toList <:+: piece ∧
        n = start + (joinOpened (regions.map closed)).length := by
  induction pieces generalizing start with
  | nil =>
    rw [regionSegments]
    constructor
    · intro h
      cases h
    · rintro ⟨regions, piece, rest, h, -⟩
      exact absurd h.symm (by simp)
  | cons first pieces ih =>
    rw [regionSegments]
    constructor
    · intro h
      split at h
      · rename_i hcut
        cases h
        exact ⟨[], first, pieces, rfl, fun _ h => absurd h List.not_mem_nil,
          cut_close_eq_none_iff.mp hcut, rfl⟩
      · rename_i code text hcut
        obtain ⟨rfl, hcode⟩ := cut_close_eq_some_iff.mp hcut
        split at h
        · rename_i n hrest
          cases h
          obtain ⟨regions, piece, rest, rfl, hcodes, hpiece, rfl⟩ := ih.mp hrest
          refine ⟨(code, text) :: regions, piece, rest, rfl,
            List.forall_mem_cons.mpr ⟨hcode, hcodes⟩, hpiece, ?_⟩
          rw [List.map_cons, length_joinOpened_cons, ← Nat.add_assoc, ← Nat.add_assoc]
          rfl
        · cases h
    · rintro ⟨regions, piece, rest, h, hcodes, hpiece, rfl⟩
      cases regions with
      | nil =>
        obtain ⟨rfl, -⟩ := List.cons.inj h
        rw [cut_close_eq_none_iff.mpr hpiece]
        rfl
      | cons region regions =>
        obtain ⟨rfl, hrest⟩ := List.cons.inj h
        obtain ⟨hcode, hcodes⟩ := List.forall_mem_cons.mp hcodes
        have hcut : cut ['#', '>'] (closed region) = some (region.1, region.2) :=
          cut_close_eq_some_iff.mpr ⟨rfl, hcode⟩
        have hlength : start + (joinOpened ((region :: regions).map closed)).length =
            start + 2 + (closed region).length + (joinOpened (regions.map closed)).length := by
          rw [List.map_cons, length_joinOpened_cons, ← Nat.add_assoc, ← Nat.add_assoc]
        rw [hcut, ih.mpr ⟨regions, piece, rest, hrest, hcodes, hpiece, hlength⟩]

/-- A text that is empty or starts with an opening marker is all pieces. -/
theorem joinOpened_splitOpen {rest : List Char} (h : rest = [] ∨ openMarker.toList <+: rest) :
    joinOpened (splitOpen rest).2 = rest := by
  have hlead : (splitOpen rest).1 = [] := by
    rcases h with rfl | ⟨tail, rfl⟩
    · rfl
    · rfl
  have hjoin := splitOpen_join rest
  rwa [hlead, List.nil_append] at hjoin

theorem joinOpened_append_cons (before after : List (List Char)) (piece : List Char) :
    joinOpened (before ++ piece :: after) =
      joinOpened before ++ (openMarker.toList ++ (piece ++ joinOpened after)) := by
  simp only [joinOpened, List.flatMap_append, List.flatMap_cons, List.append_assoc]

namespace Layout

variable {d e : Layout} {s : List Char}

/-- A text in which a layout is followed by a region without an end: the region has no closing
marker up to the next opening marker, or up to the end of the text. -/
structure Breaks (d : Layout) (piece rest cs : List Char) : Prop where
  text_eq : cs = d.text ++ (openMarker.toList ++ (piece ++ rest))
  cuts : d.Cuts d.text
  unopened : ¬ openMarker.toList <:+: piece
  unclosed : ¬ closeMarker.toList <:+: piece
  ended : rest = [] ∨ openMarker.toList <+: rest

theorem text_eq_joinOpened (d : Layout) :
    d.text = d.lead ++ joinOpened (d.regions.map closed) := by
  simp only [Layout.text, joinOpened, closed, List.flatMap_map, List.append_assoc]

/-- The pieces of such a text are those of the regions, the one without an end, and others. -/
theorem Breaks.splitOpen_eq {piece rest cs : List Char} (h : d.Breaks piece rest cs) :
    splitOpen cs = (d.lead, d.regions.map closed ++ piece :: (splitOpen rest).2) := by
  refine splitOpen_eq_iff.mpr ⟨?_, h.cuts.lead_free, List.forall_mem_append.mpr
    ⟨List.forall_mem_map.mpr h.cuts.region_free, List.forall_mem_cons.mpr
      ⟨h.unopened, (splitOpen_free rest).2⟩⟩⟩
  rw [joinOpened_append_cons, joinOpened_splitOpen h.ended, h.text_eq, text_eq_joinOpened,
    List.append_assoc]

theorem segmentsOf_eq_error_iff {cs : List Char} {n : Nat} :
    segmentsOf cs = .error n ↔
      ∃ (d : Layout) (piece rest : List Char), d.Breaks piece rest cs ∧ n = d.text.length := by
  rw [segmentsOf]
  constructor
  · intro h
    split at h
    · rename_i start hstart
      cases h
      obtain ⟨regions, piece, rest, hpieces, hcodes, hpiece, rfl⟩ :=
        regionSegments_eq_error_iff.mp hstart
      have hsplit : splitOpen cs = ((splitOpen cs).1, regions.map closed ++ piece :: rest) :=
        Prod.ext rfl hpieces
      obtain ⟨hjoin, hlead, hfree⟩ := splitOpen_eq_iff.mp hsplit
      obtain ⟨hregions, hrest⟩ := List.forall_mem_append.mp hfree
      have htext := text_eq_joinOpened ⟨(splitOpen cs).1, regions⟩
      refine ⟨⟨(splitOpen cs).1, regions⟩, piece, joinOpened rest,
        ⟨?_, ⟨rfl, hlead, fun _ hr => hregions _ (List.mem_map_of_mem hr), hcodes⟩,
          hrest _ List.mem_cons_self, hpiece, ?_⟩, by rw [htext, List.length_append]⟩
      · rw [htext, List.append_assoc, ← joinOpened_append_cons, hjoin]
      · cases rest with
        | nil => exact .inl rfl
        | cons next rest => exact .inr (List.prefix_append _ _)
    · cases h
  · rintro ⟨d, piece, rest, h, rfl⟩
    have herror : regionSegments d.lead.length
        (d.regions.map closed ++ piece :: (splitOpen rest).2) =
        .error d.text.length := by
      refine regionSegments_eq_error_iff.mpr
        ⟨d.regions, piece, _, rfl, h.cuts.code_free, h.unclosed, ?_⟩
      rw [text_eq_joinOpened, List.length_append]
    simp only [h.splitOpen_eq, herror]

/-- A text in front moves the region without an end, as long as it does not meet the text in a
marker. -/
theorem Breaks.append {piece rest cs : List Char} (hd : d.Cuts s) (he : e.Breaks piece rest cs)
    (hmeet : ¬ MeetInMarker s cs) : (d.append e).Breaks piece rest (s ++ cs) := by
  obtain ⟨rfl, hcuts, hopen, hpiece, hrest⟩ := he
  have hmeet : ¬ MeetInMarker s e.text := by
    rintro ⟨hs, hhead⟩
    obtain ⟨tail, htail⟩ := List.head?_eq_some_iff.mp hhead
    exact hmeet ⟨hs, by rw [htail]; rfl⟩
  have hboth := hd.append hcuts hmeet
  rw [← hboth.text_eq] at hboth
  refine ⟨?_, hboth, hopen, hpiece, hrest⟩
  rw [text_append, hd.text_eq, List.append_assoc]

/-- A text behind does not matter once another region follows the one without an end. -/
theorem Breaks.extend {piece rest cs : List Char} (h : d.Breaks piece rest cs)
    (hrest : openMarker.toList <+: rest) (more : List Char) :
    d.Breaks piece (rest ++ more) (cs ++ more) where
  text_eq := by rw [h.text_eq]; simp only [List.append_assoc]
  cuts := h.cuts
  unopened := h.unopened
  unclosed := h.unclosed
  ended := .inr (hrest.trans (List.prefix_append _ _))

end Layout

theorem parse_eq_error_iff {s : String} {e : Unterminated} :
    Markup.parse s = .error e ↔ ∃ (d : Layout) (piece rest : List Char),
      d.Breaks piece rest s.toList ∧ e = ⟨Location.after d.text⟩ := by
  rw [Markup.parse]
  constructor
  · intro h
    split at h
    · rename_i start hstart
      cases h
      obtain ⟨d, piece, rest, hbreaks, rfl⟩ := Layout.segmentsOf_eq_error_iff.mp hstart
      refine ⟨d, piece, rest, hbreaks, ?_⟩
      rw [hbreaks.text_eq, List.take_left]
    · cases h
  · rintro ⟨d, piece, rest, h, rfl⟩
    rw [Layout.segmentsOf_eq_error_iff.mpr ⟨d, piece, rest, h, rfl⟩, h.text_eq]
    simp only [List.take_left]

theorem parse_eq_ok_segments {s : String} {m : Markup} :
    Markup.parse s = .ok m ↔ ∃ d : Layout, d.Cuts s.toList ∧ m = .ofSegments d.segments := by
  simp only [parse_eq_ok_iff, Layout.yields_iff]
  rfl

/-! ## Both templates -/

/-- Templates that do not meet in a marker are read one after the other. -/
theorem parse_append_ok {s t : String} {m n : Markup} (hs : Markup.parse s = .ok m)
    (ht : Markup.parse t = .ok n) (hmeet : ¬ MeetInMarker s.toList t.toList) :
    Markup.parse (s ++ t) =
      .ok ⟨joinSegments m.segments n.segments, m.directives ++ n.directives⟩ := by
  obtain ⟨d, hd, rfl⟩ := parse_eq_ok_segments.mp hs
  obtain ⟨e, he, rfl⟩ := parse_eq_ok_segments.mp ht
  refine parse_eq_ok_segments.mpr ⟨d.append e, ?_, ?_⟩
  · rw [String.toList_append]
    exact hd.append he hmeet
  · rw [Layout.segments_append]
    simp only [Markup.ofSegments, directives_joinSegments]

/-- Two templates are read as each alone, if they do not meet in a marker: the segments of the
second follow those of the first, with one literal where a literal meets a literal, and a region
that is not closed in the second fails where it stands now. A region of the first that is not closed
up to another one fails whatever follows. -/
theorem parse_append (s t : String) :
    (∀ m, Markup.parse s = .ok m → ¬ MeetInMarker s.toList t.toList →
      (∀ n, Markup.parse t = .ok n → Markup.parse (s ++ t) =
        .ok ⟨joinSegments m.segments n.segments, m.directives ++ n.directives⟩) ∧
      ∀ e, Markup.parse t = .error e → ∃ before after : String, t = before ++ after ∧
        before.utf8ByteSize = e.location.offset ∧
        (Location.after (s ++ before).toList).offset = s.utf8ByteSize + e.location.offset ∧
        Markup.parse (s ++ t) = .error ⟨Location.after (s ++ before).toList⟩) ∧
    ∀ e, Markup.parse s = .error e → ∀ before rest : String, s = before ++ openMarker ++ rest →
      before.utf8ByteSize = e.location.offset → openMarker.toList <:+: rest.toList →
      Markup.parse (s ++ t) = .error e := by
  refine ⟨fun m hs hmeet => ⟨fun n ht => parse_append_ok hs ht hmeet, fun e ht => ?_⟩,
    fun e hs before rest hsplit hoffset hopen => ?_⟩
  · obtain ⟨d, hd, -⟩ := parse_eq_ok_segments.mp hs
    obtain ⟨e, piece, rest, hbreaks, rfl⟩ := parse_eq_error_iff.mp ht
    have hboth := hbreaks.append hd hmeet
    have htext := Layout.text_append d e
    rw [hd.text_eq] at htext
    refine ⟨String.ofList e.text, String.ofList (openMarker.toList ++ (piece ++ rest)),
      ?_, ?_, ?_, ?_⟩
    · rw [← String.ofList_append, ← hbreaks.text_eq, String.ofList_toList]
    · rw [← byteLength_toList, String.toList_ofList]
      rfl
    · rw [String.toList_append, String.toList_ofList, ← byteLength_toList]
      exact byteLength_append _ _
    · refine parse_eq_error_iff.mpr ⟨d.append e, piece, rest, ?_, ?_⟩
      · rw [String.toList_append]
        exact hboth
      · rw [htext, String.toList_append, String.toList_ofList]
  · obtain ⟨d, piece, tail, hbreaks, rfl⟩ := parse_eq_error_iff.mp hs
    have hcs : s.toList = before.toList ++ (openMarker.toList ++ rest.toList) := by
      rw [hsplit, String.toList_append, String.toList_append, List.append_assoc]
    -- The region stands at the offset that the error names, so what follows it is known.
    have hbefore : before.toList = d.text := by
      refine eq_of_byteLength_eq ⟨_, hcs.symm⟩ ⟨_, hbreaks.text_eq.symm⟩ ?_
      rw [byteLength_toList, hoffset]
      rfl
    have hrest : rest.toList = piece ++ tail := by
      have htext := hbreaks.text_eq
      rw [hcs, hbefore] at htext
      exact List.append_cancel_left (List.append_cancel_left htext)
    have htail : openMarker.toList <+: tail := by
      refine hbreaks.ended.resolve_left ?_
      rintro rfl
      rw [hrest, List.append_nil] at hopen
      exact hbreaks.unopened hopen
    refine parse_eq_error_iff.mpr ⟨d, piece, tail ++ t.toList, ?_, rfl⟩
    rw [String.toList_append]
    exact hbreaks.extend htail t.toList

/-- Literals that meet, with halves of markers around the place; a region of the second text that is
not closed; and one of the first that is not closed before another, which the second text does not
close. -/
theorem parse_append_halves :
    Markup.parse "<#@ k = 1 #>a<" = .ok (.ofSegments [.directive ⟨"k", "1"⟩, .literal "a<"]) ∧
      ¬ MeetInMarker "<#@ k = 1 #>a<".toList ">#>\n<#= y #>".toList ∧
      Markup.parse ">#>\n<#= y #>" = .ok (.ofSegments [.literal ">#>\n", .expression "y"]) ∧
      Markup.parse ("<#@ k = 1 #>a<" ++ ">#>\n<#= y #>") =
        .ok ⟨[.directive ⟨"k", "1"⟩, .literal "a<>#>\n", .expression "y"], [⟨"k", "1"⟩]⟩ ∧
      Markup.parse ">#>\n<# y" = .error ⟨⟨4, 2, 1⟩⟩ ∧
      Markup.parse ("<#@ k = 1 #>a<" ++ ">#>\n<# y") = .error ⟨⟨18, 2, 1⟩⟩ ∧
      Markup.parse "a\n<# x <#" = .error ⟨⟨2, 2, 1⟩⟩ ∧
      Markup.parse ("a\n<# x <#" ++ "#>") = .error ⟨⟨2, 2, 1⟩⟩ := by
  have hs : Markup.parse "<#@ k = 1 #>a<" =
      .ok (.ofSegments [.directive ⟨"k", "1"⟩, .literal "a<"]) := by decide
  have ht : Markup.parse ">#>\n<#= y #>" =
      .ok (.ofSegments [.literal ">#>\n", .expression "y"]) := by decide
  have hopen : Markup.parse ">#>\n<# y" = .error ⟨⟨4, 2, 1⟩⟩ := by decide
  have hbroken : Markup.parse "a\n<# x <#" = .error ⟨⟨2, 2, 1⟩⟩ := by decide
  have hmeet : ∀ t ∈ [">#>\n<#= y #>", ">#>\n<# y"],
      ¬ MeetInMarker "<#@ k = 1 #>a<".toList t.toList := by decide
  have hmeet' := hmeet _ (List.mem_cons_of_mem _ List.mem_cons_self)
  have hmeet := hmeet _ List.mem_cons_self
  have hjoined := ((parse_append "<#@ k = 1 #>a<" ">#>\n<#= y #>").1 _ hs hmeet).1 _ ht
  obtain ⟨before, after, hsplit, hoffset, -, herror⟩ :=
    ((parse_append "<#@ k = 1 #>a<" ">#>\n<# y").1 _ hs hmeet').2 _ hopen
  have hextended := (parse_append "a\n<# x <#" "#>").2 _ hbroken "a\n" " x <#" (by decide)
    (by decide) (by decide)
  refine ⟨hs, hmeet, ht, hjoined, hopen, ?_, hbroken, hextended⟩
  -- The region of the second text starts after its first four characters.
  have hbefore : before.toList = ">#>\n".toList := by
    have hprefix : before.toList <+: ">#>\n<# y".toList :=
      ⟨after.toList, by rw [hsplit, String.toList_append]⟩
    refine eq_of_byteLength_eq hprefix (by decide) ?_
    rw [byteLength_toList, hoffset]
    rfl
  rw [herror, String.toList_append, hbefore]
  decide

end Stencil
