import Stencil.Proofs.Markup.Append
import Stencil.Proofs.Text.Pieces

/-!
# Where a region without an end stands

A text that does not parse has a first opening marker whose region is not closed, and the error
gives the place of that marker: its byte offset, and its line and column. Either determines the
other.

* `FirstUnclosed`, `parse_eq_error_iff_first`: a text fails exactly if it has such a marker;
* `CutBy`, `cutBy_after`: the text before a place, by its line and its column alone;
* `utf8ByteSize_eq_iff`: a place by its offset, and by its line and column;
* `Location.Marks`, `marks_iff`: what a location says about a place;
* `parse_error_marks`: the location of an error.
-/

namespace Stencil

open Text (splitAt)

/-! ## The first region without an end -/

/-- A text, right after an opening marker, in which no closing marker stands before the next opening
marker or the end. -/
def NeverClosed (after : List Char) : Prop :=
  ∃ region rest, after = region ++ rest ∧ (rest = [] ∨ openMarker.toList <+: rest) ∧
    ¬ openMarker.toList <:+: region ∧ ¬ closeMarker.toList <:+: region

/-- A text around the first of its opening markers whose region is not closed. -/
structure FirstUnclosed (cs before after : List Char) : Prop where
  text_eq : cs = before ++ (openMarker.toList ++ after)
  unclosed : NeverClosed after
  first : ∀ b a, cs = b ++ (openMarker.toList ++ a) → NeverClosed a → before.length ≤ b.length

theorem neverClosed_iff {after : List Char} :
    NeverClosed after ↔ ¬ closeMarker.toList <:+: (splitOpen after).1 := by
  constructor
  · rintro ⟨region, rest, rfl, hrest, hopen, hclose⟩
    have hsplit : splitOpen (region ++ rest) = (region, (splitOpen rest).2) := by
      refine splitOpen_eq_iff.mpr ⟨?_, hopen, (splitOpen_free rest).2⟩
      rw [joinOpened_splitOpen hrest]
    rwa [hsplit]
  · intro hclose
    refine ⟨(splitOpen after).1, joinOpened (splitOpen after).2, (splitOpen_join after).symm, ?_,
      (splitOpen_free after).1, hclose⟩
    cases (splitOpen after).2 with
    | nil => exact .inl rfl
    | cons piece pieces => exact .inr (List.prefix_append _ _)

/-- An opening marker cuts the pieces of a text in two. -/
theorem splitOpen_open (b a : List Char) :
    splitOpen (b ++ (openMarker.toList ++ a)) =
      ((splitOpen b).1, (splitOpen b).2 ++ (splitOpen a).1 :: (splitOpen a).2) := by
  obtain ⟨hlead, hfree⟩ := splitOpen_free b
  obtain ⟨hpiece, hrest⟩ := splitOpen_free a
  refine splitOpen_eq_iff.mpr ⟨?_, hlead, List.forall_mem_append.mpr
    ⟨hfree, List.forall_mem_cons.mpr ⟨hpiece, hrest⟩⟩⟩
  rw [joinOpened_append_cons, splitOpen_join a, ← List.append_assoc, splitOpen_join b]

theorem close_infix_closed (region : List Char × List Char) :
    closeMarker.toList <:+: closed region :=
  ⟨region.1, region.2, rfl⟩

/-- The regions of a layout end before an opening marker whose region is not closed. -/
theorem Layout.length_text_le {d : Layout} {b a : List Char} {pieces : List (List Char)}
    (hs : splitOpen (b ++ (openMarker.toList ++ a)) = (d.lead, d.regions.map closed ++ pieces))
    (ha : NeverClosed a) : d.text.length ≤ b.length := by
  rw [splitOpen_open, Prod.mk.injEq] at hs
  obtain ⟨hlead, hpieces⟩ := hs
  -- The piece of the marker is not closed, so the pieces of all regions come before it.
  have hprefix : d.regions.map closed <+: (splitOpen b).2 := by
    rcases List.append_eq_append_iff.mp hpieces with ⟨more, hmore, hrest⟩ | ⟨more, hmore, -⟩
    · cases more with
      | nil =>
        rw [List.append_nil] at hmore
        exact ⟨[], by rw [List.append_nil, hmore]⟩
      | cons piece more =>
        obtain ⟨rfl, -⟩ := List.cons.inj hrest
        have hmem : (splitOpen a).1 ∈ d.regions.map closed := by
          rw [hmore]
          exact List.mem_append_right _ List.mem_cons_self
        obtain ⟨region, -, hclosed⟩ := List.mem_map.mp hmem
        exact absurd (hclosed ▸ close_infix_closed region) (neverClosed_iff.mp ha)
    · exact ⟨more, hmore.symm⟩
  obtain ⟨more, hmore⟩ := hprefix
  rw [← splitOpen_join b, ← hmore, hlead, text_eq_joinOpened]
  simp only [joinOpened, List.flatMap_append, List.length_append]
  omega

theorem Layout.Breaks.firstUnclosed {d : Layout} {piece rest cs : List Char}
    (h : d.Breaks piece rest cs) : FirstUnclosed cs d.text (piece ++ rest) where
  text_eq := h.text_eq
  unclosed := ⟨piece, rest, rfl, h.ended, h.unopened, h.unclosed⟩
  first b a hcs ha := by
    have hsplit := h.splitOpen_eq
    rw [hcs] at hsplit
    exact Layout.length_text_le hsplit ha

/-- A text has one first region without an end at most. -/
theorem FirstUnclosed.unique {cs b a b' a' : List Char} (h : FirstUnclosed cs b a)
    (h' : FirstUnclosed cs b' a') : b = b' ∧ a = a' := by
  have hlength : b.length = b'.length :=
    Nat.le_antisymm (h.first b' a' h'.text_eq h'.unclosed) (h'.first b a h.text_eq h.unclosed)
  obtain ⟨hb, hrest⟩ := List.append_inj (h.text_eq.symm.trans h'.text_eq) hlength
  exact ⟨hb, List.append_cancel_left hrest⟩

/-- A text with a layout has no region without an end. -/
theorem Layout.Cuts.not_neverClosed {d : Layout} {b a : List Char}
    (h : d.Cuts (b ++ (openMarker.toList ++ a))) : ¬ NeverClosed a := by
  intro ha
  have hsplit := (cuts_iff.mp h).1
  have hle : d.text.length ≤ b.length :=
    length_text_le (by rw [List.append_nil]; exact hsplit) ha
  rw [h.text_eq, List.length_append, List.length_append, openMarker_toList] at hle
  simp only [List.length_cons, List.length_nil] at hle
  omega

/-- A text fails exactly if it has a region without an end, at the place of the first. -/
theorem parse_eq_error_iff_first {s : String} {e : Unterminated} :
    Markup.parse s = .error e ↔
      ∃ before after, FirstUnclosed s.toList before after ∧ e = ⟨Location.after before⟩ := by
  constructor
  · intro h
    obtain ⟨d, piece, rest, hbreaks, rfl⟩ := parse_eq_error_iff.mp h
    exact ⟨d.text, piece ++ rest, hbreaks.firstUnclosed, rfl⟩
  · rintro ⟨before, after, hfirst, rfl⟩
    cases hparse : Markup.parse s with
    | ok m =>
      obtain ⟨d, hcuts, -⟩ := parse_eq_ok_segments.mp hparse
      rw [hfirst.text_eq] at hcuts
      exact absurd hfirst.unclosed hcuts.not_neverClosed
    | error e =>
      obtain ⟨d, piece, rest, hbreaks, rfl⟩ := parse_eq_error_iff.mp hparse
      rw [(hbreaks.firstUnclosed.unique hfirst).1]

/-! ## Lines and columns -/

/-- A text is whole lines and the line it ends in. -/
structure EndsIn (cs lines current : List Char) : Prop where
  text_eq : cs = lines ++ current
  whole : lines = [] ∨ ∃ init, lines = init ++ ['\n']
  notMem : '\n' ∉ current

theorem exists_endsIn (cs : List Char) : ∃ lines current, EndsIn cs lines current := by
  obtain ⟨lines, current, heq, hwhole, hcurrent⟩ := Text.exists_split_last '\n' cs
  exact ⟨lines, current, heq, hwhole, hcurrent⟩

/-- The column after a text counts the characters of the line it ends in. -/
theorem EndsIn.column_eq {cs lines current : List Char} (h : EndsIn cs lines current) :
    (Location.after cs).column = current.length + 1 := by
  have hcurrent : ∀ c ∈ current.reverse, decide (c ≠ '\n') = true := by
    intro c hc
    refine decide_eq_true ?_
    rintro rfl
    exact h.notMem (List.mem_reverse.mp hc)
  have hlines : lines.reverse.takeWhile (· ≠ '\n') = [] := by
    rcases h.whole with rfl | ⟨init, rfl⟩
    · rfl
    · rw [List.reverse_append]
      rfl
  show (cs.reverse.takeWhile (· ≠ '\n')).length + 1 = current.length + 1
  rw [h.text_eq, List.reverse_append, List.takeWhile_append_of_pos hcurrent, hlines,
    List.append_nil, List.length_reverse]

/-- The pieces of a text that goes on: those of the whole lines, and the one that starts with the
line the text ends in. -/
theorem EndsIn.splitAt_append {b lines current : List Char} (h : EndsIn b lines current)
    (a : List Char) : ∃ first piece rest,
      splitAt '\n' (b ++ a) = first ++ (current ++ piece) :: rest ∧
        first.length = b.count '\n' ∧ first.flatMap (· ++ ['\n']) = lines := by
  obtain ⟨piece, rest, hpieces⟩ := Text.exists_splitAt_append h.notMem a
  have hcount : b.count '\n' = lines.count '\n' := by
    rw [h.text_eq, List.count_append, List.count_eq_zero_of_not_mem h.notMem, Nat.add_zero]
  rw [hcount, h.text_eq, List.append_assoc]
  rcases h.whole with rfl | ⟨init, rfl⟩
  · exact ⟨[], piece, rest, hpieces, rfl, rfl⟩
  · refine ⟨splitAt '\n' init, piece, rest, ?_, ?_, Text.flatMap_splitAt '\n' init⟩
    · rw [List.append_assoc, List.singleton_append, Text.splitAt_append_cons, hpieces]
    · rw [Text.length_splitAt, List.count_append, List.count_singleton_self]

/-- What stands before a line and a column of a text: the pieces between newlines before that line,
with the newlines after them, and the characters of the piece of that line before the column. -/
def CutBy (cs : List Char) (line column : Nat) (before : List Char) : Prop :=
  ∃ piece, (splitAt '\n' cs)[line - 1]? = some piece ∧ column - 1 ≤ piece.length ∧
    before = ((splitAt '\n' cs).take (line - 1)).flatMap (· ++ ['\n']) ++ piece.take (column - 1)

theorem CutBy.unique {cs b b' : List Char} {line column : Nat} (h : CutBy cs line column b)
    (h' : CutBy cs line column b') : b = b' := by
  obtain ⟨piece, hpiece, -, rfl⟩ := h
  obtain ⟨piece', hpiece', -, rfl⟩ := h'
  rw [Option.some.inj (hpiece.symm.trans hpiece')]

/-- A text is what stands before the line and the column right after it, whatever follows. -/
theorem cutBy_after (b a : List Char) :
    CutBy (b ++ a) (Location.after b).line (Location.after b).column b := by
  obtain ⟨lines, current, h⟩ := exists_endsIn b
  obtain ⟨first, piece, rest, hpieces, hfirst, hlines⟩ := h.splitAt_append a
  have hline : (Location.after b).line - 1 = first.length := hfirst.symm
  have hcolumn : (Location.after b).column - 1 = current.length := by
    rw [h.column_eq, Nat.add_sub_cancel]
  refine ⟨current ++ piece, ?_, ?_, ?_⟩
  · rw [hpieces, hline, List.getElem?_append_right (Nat.le_refl _), Nat.sub_self]
    rfl
  · rw [hcolumn, List.length_append]
    exact Nat.le_add_right _ _
  · rw [hpieces, hline, hcolumn, List.take_left, List.take_left, hlines, ← h.text_eq]

/-- Two places of a text are as many bytes from its start exactly if they are on the same line and
in the same column. -/
theorem utf8ByteSize_eq_iff {s b a b' a' : String} (h : s = b ++ a) (h' : s = b' ++ a') :
    b.utf8ByteSize = b'.utf8ByteSize ↔
      (Location.after b.toList).line = (Location.after b'.toList).line ∧
        (Location.after b.toList).column = (Location.after b'.toList).column := by
  constructor
  · intro hbytes
    rw [← byteLength_toList, ← byteLength_toList] at hbytes
    have hb : b.toList <+: s.toList := by
      rw [h, String.toList_append]
      exact List.prefix_append _ _
    have hb' : b'.toList <+: s.toList := by
      rw [h', String.toList_append]
      exact List.prefix_append _ _
    rw [eq_of_byteLength_eq hb hb' hbytes]
    exact ⟨rfl, rfl⟩
  · rintro ⟨hline, hcolumn⟩
    have hcut := cutBy_after b.toList a.toList
    have hcut' := cutBy_after b'.toList a'.toList
    rw [← String.toList_append, ← h, hline, hcolumn] at hcut
    rw [← String.toList_append, ← h'] at hcut'
    rw [← byteLength_toList, ← byteLength_toList, hcut.unique hcut']

/-! ## What a location says -/

/-- The position after a first part of a text. -/
theorem exists_splits {s a b : String} (h : s = a ++ b) :
    ∃ p : s.Pos, p.offset.byteIdx = a.utf8ByteSize ∧ p.Splits a b := by
  have hvalid : String.Pos.Raw.IsValid s a.rawEndPos :=
    String.Pos.Raw.isValid_iff_exists_append.mpr ⟨a, b, h, rfl⟩
  exact ⟨⟨a.rawEndPos, hvalid⟩, rfl, h, rfl⟩

namespace Location

/-- What a location says about an opening marker with a text before and after it. -/
structure Marks (place : Location) (s before after : String) : Prop where
  /-- The offset is a position of the text, and the marker starts there. -/
  boundary : ∃ p : s.Pos, p.offset.byteIdx = place.offset ∧ p.Splits before (openMarker ++ after)
  line : place.line = before.toList.count '\n' + 1
  /-- The line of the marker starts at a position of the text before it. -/
  column : ∃ (p : before.Pos) (lines current : String), p.Splits lines current ∧
    EndsIn before.toList lines.toList current.toList ∧ place.column = current.length + 1
  cut : CutBy s.toList place.line place.column before.toList
  /-- A place of the text has this offset exactly if it has this line and this column. -/
  determined : ∀ b a, s = b ++ a → (b.utf8ByteSize = place.offset ↔
    (Location.after b.toList).line = place.line ∧ (Location.after b.toList).column = place.column)

variable {place : Location} {s before after : String}

theorem Marks.eq_after (h : place.Marks s before after) : place = Location.after before.toList := by
  obtain ⟨p, hp, hsplits⟩ := h.boundary
  obtain ⟨_, lines, current, -, hends, hcolumn⟩ := h.column
  have hoffset : place.offset = byteLength before.toList := by
    rw [← hp, hsplits.offset_eq_rawEndPos, byteLength_toList]
    rfl
  have hcolumn : place.column = (Location.after before.toList).column := by
    rw [hcolumn, hends.column_eq, String.length_toList]
  calc
    place = ⟨place.offset, place.line, place.column⟩ := rfl
    _ = Location.after before.toList := by
      rw [hoffset, h.line, hcolumn]
      rfl

theorem marks_after (hs : s = before ++ (openMarker ++ after)) :
    (Location.after before.toList).Marks s before after where
  boundary := by
    obtain ⟨p, hp, hsplits⟩ := exists_splits hs
    exact ⟨p, hp.trans (byteLength_toList before).symm, hsplits⟩
  line := rfl
  column := by
    obtain ⟨lines, current, hends⟩ := exists_endsIn before.toList
    have hbefore : before = String.ofList lines ++ String.ofList current := by
      rw [← String.ofList_append, ← hends.text_eq, String.ofList_toList]
    obtain ⟨p, -, hsplits⟩ := exists_splits hbefore
    refine ⟨p, String.ofList lines, String.ofList current, hsplits, ?_, ?_⟩
    · rw [String.toList_ofList, String.toList_ofList]
      exact hends
    · rw [hends.column_eq, String.length_ofList]
  cut := by
    rw [hs, String.toList_append]
    exact cutBy_after before.toList (openMarker ++ after).toList
  determined b a hb := by
    have hoffset : (Location.after before.toList).offset = before.utf8ByteSize :=
      byteLength_toList before
    rw [hoffset]
    exact utf8ByteSize_eq_iff hb hs

end Location

/-- A location says all of this exactly if it is the one right after the text before the marker. -/
theorem marks_iff {place : Location} {s before after : String}
    (hs : s = before ++ (openMarker ++ after)) :
    place.Marks s before after ↔ place = Location.after before.toList :=
  ⟨Location.Marks.eq_after, fun h => h ▸ Location.marks_after hs⟩

/-- A text fails exactly at the first opening marker whose region is not closed: the offset of the
error is the byte position where the marker starts, its line counts the newlines before that, its
column the characters since the last of them, and either gives the other. -/
theorem parse_error_marks (s : String) (e : Unterminated) :
    Markup.parse s = .error e ↔ ∃ before after : String,
      FirstUnclosed s.toList before.toList after.toList ∧ e.location.Marks s before after := by
  have htext : ∀ before after : String, FirstUnclosed s.toList before.toList after.toList →
      s = before ++ (openMarker ++ after) := by
    intro before after h
    rw [← String.toList_inj, String.toList_append, String.toList_append]
    exact h.text_eq
  rw [parse_eq_error_iff_first]
  constructor
  · rintro ⟨before, after, h, rfl⟩
    rw [← String.toList_ofList (l := before), ← String.toList_ofList (l := after)] at h
    refine ⟨String.ofList before, String.ofList after, h, (marks_iff (htext _ _ h)).mpr ?_⟩
    rw [String.toList_ofList]
  · rintro ⟨before, after, h, hmarks⟩
    obtain ⟨place⟩ := e
    exact ⟨before.toList, after.toList, h,
      congrArg Unterminated.mk ((marks_iff (htext _ _ h)).mp hmarks)⟩

example : Markup.parse "é\n<# a #>\n ü<# x <# y #>" = .error ⟨⟨14, 3, 3⟩⟩ := by
  decide +kernel

end Stencil
