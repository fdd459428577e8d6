import Stencil.Markup.Parser
import Stencil.Proofs.Text.Cut

/-!
# The layout of a template

A template is laid out as the text before its first region, and the code of each region with the
text after it. A layout cuts a text if its parts, with markers around the codes, are the text, and
no part holds a marker that would end it earlier.

* `splitOpen_eq_iff`: what `splitOpen` gives is the only way to cut a text at its opening markers;
* `regionSegments_eq_ok_iff`: the segments of pieces that are all closed;
* `parse_iff_layout`: a text parses exactly if it has a layout, which is the only one, and
  the segments are those of the layout.
-/

namespace Stencil

open Text (cut cut_eq_some_iff not_infix_append_dropLast_pair)

theorem openMarker_toList : openMarker.toList = ['<', '#'] := rfl

theorem closeMarker_toList : closeMarker.toList = ['#', '>'] := rfl

/-! ## Cutting at opening markers -/

/-- Pieces of a text, each after an opening marker. -/
def joinOpened (pieces : List (List Char)) : List Char :=
  pieces.flatMap fun piece => openMarker.toList ++ piece

theorem joinOpened_cons (piece : List Char) (pieces : List (List Char)) :
    joinOpened (piece :: pieces) = '<' :: '#' :: (piece ++ joinOpened pieces) := rfl

theorem splitOpen_join (cs : List Char) : (splitOpen cs).1 ++ joinOpened (splitOpen cs).2 = cs := by
  fun_induction splitOpen cs with
  | case1 cs rest ih => rw [joinOpened_cons, List.nil_append, ih]
  | case2 c cs _ rest ih => rw [List.cons_append, ih]
  | case3 => rfl

/-- A text that does not start with an opening marker does not have one put at its start by a
character before a text without any. -/
theorem not_open_infix_cons {c : Char} {cs : List Char} (h : ¬ openMarker.toList <:+: cs)
    (hc : ∀ rest, c = '<' → cs ≠ '#' :: rest) : ¬ openMarker.toList <:+: c :: cs := by
  intro hi
  rcases List.infix_cons_iff.mp hi with hp | hi
  · obtain ⟨hc', rest, hr⟩ := List.cons_prefix_cons.mp hp
    exact hc rest hc'.symm hr.symm
  · exact h hi

theorem splitOpen_free (cs : List Char) :
    ¬ openMarker.toList <:+: (splitOpen cs).1 ∧
      ∀ piece ∈ (splitOpen cs).2, ¬ openMarker.toList <:+: piece := by
  fun_induction splitOpen cs with
  | case1 cs rest ih => exact ⟨by simp [openMarker_toList], List.forall_mem_cons.mpr ih⟩
  | case2 c cs hno rest ih =>
    refine ⟨not_open_infix_cons ih.1 fun tail hc ht => ?_, ih.2⟩
    -- The rest of the text would start with the second character of the marker.
    have ht : (splitOpen cs).1 = '#' :: tail := ht
    have hj := splitOpen_join cs
    rw [ht, List.cons_append] at hj
    exact hno _ hc hj.symm
  | case3 => exact ⟨by decide, by simp⟩

theorem splitOpen_append {lead : List Char} {pieces : List (List Char)}
    (hl : ¬ openMarker.toList <:+: lead) (hp : ∀ piece ∈ pieces, ¬ openMarker.toList <:+: piece) :
    splitOpen (lead ++ joinOpened pieces) = (lead, pieces) := by
  induction pieces generalizing lead with
  | nil =>
    induction lead with
    | nil => rfl
    | cons c cs ih =>
      have ih := ih fun h => hl (List.infix_cons h)
      rw [List.cons_append, splitOpen, ih]
      intro rest hc hr
      subst hc
      rw [show joinOpened [] = [] from rfl, List.append_nil] at hr
      exact hl ⟨[], rest, by rw [hr]; rfl⟩
  | cons piece pieces ihp =>
    have ihp := ihp (hp piece (List.mem_cons_self ..)) fun q hq => hp q (List.mem_cons_of_mem _ hq)
    induction lead with
    | nil => rw [List.nil_append, joinOpened_cons, splitOpen, ihp]
    | cons c cs ih =>
      have ih := ih fun h => hl (List.infix_cons h)
      rw [List.cons_append, splitOpen, ih]
      intro rest hc hr
      subst hc
      -- The character after `<` is that of the lead, or starts the next marker.
      cases cs with
      | nil => exact absurd (List.cons.inj hr).1 (by decide)
      | cons x cs =>
        obtain ⟨rfl, -⟩ := List.cons.inj hr
        exact hl ⟨[], cs, rfl⟩

theorem splitOpen_eq_iff {cs lead : List Char} {pieces : List (List Char)} :
    splitOpen cs = (lead, pieces) ↔ lead ++ joinOpened pieces = cs ∧
      ¬ openMarker.toList <:+: lead ∧ ∀ piece ∈ pieces, ¬ openMarker.toList <:+: piece := by
  constructor
  · intro h
    have hj := splitOpen_join cs
    have hf := splitOpen_free cs
    rw [h] at hj hf
    exact ⟨hj, hf⟩
  · rintro ⟨rfl, hl, hp⟩
    exact splitOpen_append hl hp

/-! ## Closing regions -/

theorem cut_close_eq_some_iff {piece code text : List Char} :
    cut ['#', '>'] piece = some (code, text) ↔
      piece = code ++ closeMarker.toList ++ text ∧ ¬ closeMarker.toList <:+: code := by
  rw [cut_eq_some_iff (by decide), not_infix_append_dropLast_pair (by decide), closeMarker_toList]

/-- The code of a region, its closing marker and the text after it. -/
def closed (region : List Char × List Char) : List Char :=
  region.1 ++ closeMarker.toList ++ region.2

theorem regionSegments_eq_ok_iff {start : Nat} {pieces : List (List Char)} {segs : List Segment} :
    regionSegments start pieces = .ok segs ↔
      ∃ regions : List (List Char × List Char), pieces = regions.map closed ∧
        (∀ region ∈ regions, ¬ closeMarker.toList <:+: region.1) ∧
        segs = regions.flatMap fun region => classify region.1 :: literalSegments region.2 := by
  induction pieces generalizing start segs with
  | nil =>
    rw [regionSegments, Except.ok.injEq]
    constructor
    · rintro rfl
      exact ⟨[], rfl, by simp, rfl⟩
    · rintro ⟨regions, hr, -, rfl⟩
      rw [List.map_eq_nil_iff.mp hr.symm, List.flatMap_nil]
  | cons piece pieces ih =>
    rw [regionSegments]
    constructor
    · intro h
      split at h
      · cases h
      · rename_i code text hc
        obtain ⟨rfl, hcode⟩ := cut_close_eq_some_iff.mp hc
        split at h
        · cases h
        · rename_i rest hrest
          obtain ⟨regions, rfl, hfree, rfl⟩ := ih.mp hrest
          cases h
          exact ⟨(code, text) :: regions, rfl, List.forall_mem_cons.mpr ⟨hcode, hfree⟩, rfl⟩
    · rintro ⟨regions, hr, hfree, rfl⟩
      cases regions with
      | nil => cases hr
      | cons region regions =>
        obtain ⟨rfl, rfl⟩ := List.cons.inj hr
        obtain ⟨hcode, hfree⟩ := List.forall_mem_cons.mp hfree
        have hc : cut ['#', '>'] (closed region) = some (region.1, region.2) :=
          cut_close_eq_some_iff.mpr ⟨rfl, hcode⟩
        rw [hc, ih.mpr ⟨regions, rfl, hfree, rfl⟩, List.flatMap_cons, List.cons_append]

/-! ## Layouts -/

/-- A template as the text before its first region, and the code of each region with the text
after it. -/
@[ext] structure Layout where
  lead : List Char
  regions : List (List Char × List Char)

namespace Layout

/-- The text of a layout, with the markers around its codes. -/
def text (d : Layout) : List Char :=
  d.lead ++ d.regions.flatMap fun region =>
    openMarker.toList ++ region.1 ++ closeMarker.toList ++ region.2

/-- A layout cuts a text if it has that text, nothing but its regions starts with an opening
marker, and no code holds a closing marker. -/
structure Cuts (d : Layout) (cs : List Char) : Prop where
  text_eq : d.text = cs
  lead_free : ¬ openMarker.toList <:+: d.lead
  region_free : ∀ region ∈ d.regions,
    ¬ openMarker.toList <:+: region.1 ++ closeMarker.toList ++ region.2
  code_free : ∀ region ∈ d.regions, ¬ closeMarker.toList <:+: region.1

/-- The segment that a code stands for: by its first character a directive, an expression, which
is trimmed, or else a statement as it is written. -/
inductive CodeSegment : List Char → Segment → Prop
  | directive (body : List Char) :
    CodeSegment ('@' :: body) (.directive (Directive.parse (String.ofList body)))
  | expression (code : List Char) :
    CodeSegment ('=' :: code) (.expression (Text.trimmed (String.ofList code)))
  | statement (code : List Char) (hd : code.head? ≠ some '@') (he : code.head? ≠ some '=') :
    CodeSegment code (.statement (String.ofList code))

/-- The segments that a text between regions stands for: a literal, unless it is empty. -/
inductive TextSegments : List Char → List Segment → Prop
  | empty : TextSegments [] []
  | literal (text : List Char) (h : text ≠ []) : TextSegments text [.literal (String.ofList text)]

/-- The segments that regions stand for, in order: those of each code and the text after it. -/
inductive RegionSegments : List (List Char × List Char) → List Segment → Prop
  | nil : RegionSegments [] []
  | cons {code text : List Char} {seg : Segment} {lit segs : List Segment}
    {rest : List (List Char × List Char)} (hc : CodeSegment code seg) (ht : TextSegments text lit)
    (hr : RegionSegments rest segs) : RegionSegments ((code, text) :: rest) (seg :: (lit ++ segs))

/-- What a layout stands for: the segments of its parts in order, and the directives among them. -/
inductive Yields (d : Layout) : Markup → Prop
  | intro {lit segs : List Segment} (hl : TextSegments d.lead lit)
    (hr : RegionSegments d.regions segs) :
    Yields d ⟨lit ++ segs, (lit ++ segs).filterMap Segment.directive?⟩

theorem codeSegment_iff {code : List Char} {seg : Segment} :
    CodeSegment code seg ↔ seg = classify code := by
  constructor
  · rintro (body | code | ⟨code, hd, he⟩)
    · rw [classify, Directive.parse, String.toList_ofList]
    · rw [classify, Text.trimmed, String.toList_ofList]
    · rw [classify]
      · rintro body rfl
        exact hd rfl
      · rintro rest rfl
        exact he rfl
  · rintro rfl
    fun_cases classify code with
    | case1 body => simpa [Directive.parse] using CodeSegment.directive body
    | case2 code => simpa [Text.trimmed] using CodeSegment.expression code
    | case3 code hd he =>
      refine .statement code (fun h => ?_) fun h => ?_
      · obtain ⟨rest, rfl⟩ := List.head?_eq_some_iff.mp h
        exact hd rest rfl
      · obtain ⟨rest, rfl⟩ := List.head?_eq_some_iff.mp h
        exact he rest rfl

theorem textSegments_iff {text : List Char} {lit : List Segment} :
    TextSegments text lit ↔ lit = literalSegments text := by
  constructor
  · rintro (_ | ⟨text, h⟩)
    · rfl
    · rw [literalSegments, if_neg (by simpa using h)]
  · rintro rfl
    cases text with
    | nil => exact .empty
    | cons c cs => exact .literal (c :: cs) (List.cons_ne_nil c cs)

theorem regionSegments_iff {regions : List (List Char × List Char)} {segs : List Segment} :
    RegionSegments regions segs ↔
      segs = regions.flatMap fun region => classify region.1 :: literalSegments region.2 := by
  induction regions generalizing segs with
  | nil =>
    constructor
    · rintro ⟨⟩
      rfl
    · rintro rfl
      exact .nil
  | cons region rest ih =>
    constructor
    · rintro (_ | ⟨hc, ht, hr⟩)
      rw [codeSegment_iff.mp hc, textSegments_iff.mp ht, ih.mp hr]
      rfl
    · rintro rfl
      exact .cons (codeSegment_iff.mpr rfl) (textSegments_iff.mpr rfl) (ih.mpr rfl)

theorem yields_iff {d : Layout} {m : Markup} :
    d.Yields m ↔ m = .ofSegments (literalSegments d.lead ++
      d.regions.flatMap fun region => classify region.1 :: literalSegments region.2) := by
  constructor
  · rintro ⟨hl, hr⟩
    rw [textSegments_iff.mp hl, regionSegments_iff.mp hr]
    rfl
  · rintro rfl
    exact .intro (textSegments_iff.mpr rfl) (regionSegments_iff.mpr rfl)

theorem cuts_iff {d : Layout} {cs : List Char} :
    d.Cuts cs ↔ splitOpen cs = (d.lead, d.regions.map closed) ∧
      ∀ region ∈ d.regions, ¬ closeMarker.toList <:+: region.1 := by
  have ht : d.text = d.lead ++ joinOpened (d.regions.map closed) := by
    simp only [text, joinOpened, closed, List.flatMap_map, List.append_assoc]
  rw [splitOpen_eq_iff, ← ht, List.forall_mem_map]
  exact ⟨fun h => ⟨⟨h.text_eq, h.lead_free, h.region_free⟩, h.code_free⟩,
    fun h => ⟨h.1.1, h.1.2.1, h.1.2.2, h.2⟩⟩

/-- The regions of a layout, read off the text that it cuts. -/
theorem Cuts.regions_eq {d : Layout} {cs : List Char} (h : d.Cuts cs) :
    d.regions = (splitOpen cs).2.filterMap (cut ['#', '>']) := by
  obtain ⟨hs, hf⟩ := cuts_iff.mp h
  have hc : ∀ region ∈ d.regions, cut ['#', '>'] (closed region) = some region :=
    fun region hr => cut_close_eq_some_iff.mpr ⟨rfl, hf region hr⟩
  rw [hs, List.filterMap_map]
  exact ((List.filterMap_congr hc).trans List.filterMap_some).symm

theorem Cuts.unique {d e : Layout} {cs : List Char} (hd : d.Cuts cs) (he : e.Cuts cs) : d = e := by
  have hl : d.lead = e.lead := by
    have hd := (cuts_iff.mp hd).1
    have he := (cuts_iff.mp he).1
    rw [he] at hd
    exact (Prod.mk.inj hd).1.symm
  exact Layout.ext hl (hd.regions_eq.trans he.regions_eq.symm)

/-- A text has the segments of a list exactly if it has a layout with those segments. -/
theorem segmentsOf_eq_ok_iff {cs : List Char} {segs : List Segment} :
    segmentsOf cs = .ok segs ↔ ∃ d : Layout, d.Cuts cs ∧ segs = literalSegments d.lead ++
      d.regions.flatMap fun region => classify region.1 :: literalSegments region.2 := by
  simp only [segmentsOf, cuts_iff]
  constructor
  · intro h
    split at h
    · cases h
    · rename_i rest hrest
      obtain ⟨regions, hr, hf, rfl⟩ := regionSegments_eq_ok_iff.mp hrest
      cases h
      exact ⟨⟨(splitOpen cs).1, regions⟩, ⟨Prod.ext rfl hr, hf⟩, rfl⟩
  · rintro ⟨d, ⟨hs, hf⟩, rfl⟩
    rw [hs, regionSegments_eq_ok_iff.mpr ⟨d.regions, rfl, hf, rfl⟩]

end Layout

theorem parse_eq_ok_iff {s : String} {m : Markup} :
    Markup.parse s = .ok m ↔ ∃ d : Layout, d.Cuts s.toList ∧ d.Yields m := by
  simp only [Markup.parse, Layout.yields_iff]
  constructor
  · intro h
    split at h
    · cases h
    · rename_i segs hs
      obtain ⟨d, hd, rfl⟩ := Layout.segmentsOf_eq_ok_iff.mp hs
      cases h
      exact ⟨d, hd, rfl⟩
  · rintro ⟨d, hd, rfl⟩
    rw [Layout.segmentsOf_eq_ok_iff.mpr ⟨d, hd, rfl⟩]

/-- A text parses exactly if it has a layout; it has at most one; and it parses to what its layout
yields, and to nothing else. -/
theorem parse_iff_layout (s : String) :
    ((∃ m, Markup.parse s = .ok m) ↔ ∃ d : Layout, d.Cuts s.toList) ∧
      (∀ d e : Layout, d.Cuts s.toList → e.Cuts s.toList → d = e) ∧
      ∀ m, Markup.parse s = .ok m ↔ ∃ d : Layout, d.Cuts s.toList ∧ d.Yields m := by
  refine ⟨⟨fun ⟨m, h⟩ => ?_, fun ⟨d, hd⟩ => ?_⟩, fun d e hd he => hd.unique he,
    fun m => parse_eq_ok_iff⟩
  · obtain ⟨d, hd, -⟩ := parse_eq_ok_iff.mp h
    exact ⟨d, hd⟩
  · exact ⟨_, parse_eq_ok_iff.mpr ⟨d, hd, Layout.yields_iff.mpr rfl⟩⟩

/-- Markers that share a character: the code of the region `<#>##>` is `>#`. -/
theorem parse_iff_layout_overlap :
    Layout.Cuts ⟨['<'], [(['>', '#'], ['#', '>'])]⟩ "<<#>##>#>".toList ∧
      Layout.Yields ⟨['<'], [(['>', '#'], ['#', '>'])]⟩
        (.ofSegments [.literal "<", .statement ">#", .literal "#>"]) ∧
      Markup.parse "<<#>##>#>" =
        .ok (.ofSegments [.literal "<", .statement ">#", .literal "#>"]) :=
  have hc : Layout.Cuts ⟨['<'], [(['>', '#'], ['#', '>'])]⟩ "<<#>##>#>".toList :=
    ⟨by decide, by decide, by decide, by decide⟩
  have hy : Layout.Yields ⟨['<'], [(['>', '#'], ['#', '>'])]⟩
      (.ofSegments [.literal "<", .statement ">#", .literal "#>"]) :=
    Layout.yields_iff.mpr (by decide)
  ⟨hc, hy, ((parse_iff_layout "<<#>##>#>").2.2 _).mpr ⟨_, hc, hy⟩⟩

end Stencil
