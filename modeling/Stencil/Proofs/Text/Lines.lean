import Stencil.Proofs.Text.Pieces
import Stencil.Proofs.Text.Trim

/-!
# The lines of a text

`Text.lines cs` gives the lines of a text without their line ends. A line feed and a carriage return
before it end a line alike, and both are blank, so the trimmed lines that are not empty do not tell
the two apart:

* `solid`: what is left of rows that are trimmed, without the empty ones;
* `solid_lines`: the lines of a text and the pieces between its line feeds leave the same;
* `lines_intercalate`: rows that are joined by line feeds are read back as lines.
-/

namespace Stencil.Text

/-- What is left of rows that are trimmed, without those of which nothing is left. -/
def solid (rows : List (List Char)) : List (List Char) :=
  (rows.map trim).filter fun row => !row.isEmpty

/-- A row of which nothing is lost by trimming, with something on it. -/
structure Solid (row : List Char) : Prop where
  ne_nil : row ≠ []
  trimmed : trim row = row
  unbroken : '\n' ∉ row

instance (row : List Char) : Decidable (Solid row) :=
  decidable_of_iff (row ≠ [] ∧ trim row = row ∧ '\n' ∉ row)
    ⟨fun ⟨a, b, c⟩ => ⟨a, b, c⟩, fun ⟨a, b, c⟩ => ⟨a, b, c⟩⟩

theorem solid_append (rows more : List (List Char)) :
    solid (rows ++ more) = solid rows ++ solid more := by
  rw [solid, solid, solid, List.map_append, List.filter_append]

/-- What is left of rows without line feeds is solid. -/
theorem solid_of_mem {rows : List (List Char)} (h : ∀ row ∈ rows, '\n' ∉ row) :
    ∀ row ∈ solid rows, Solid row := by
  intro row hrow
  obtain ⟨hmem, hne⟩ := List.mem_filter.mp hrow
  obtain ⟨whole, hwhole, rfl⟩ := List.mem_map.mp hmem
  refine ⟨fun hnil => ?_, trim_trim whole, fun hbreak => ?_⟩
  · rw [hnil] at hne
    cases hne
  · exact h whole hwhole ((trim_within whole).subset hbreak)

/-- Solid rows stay as they are, whatever blanks are put before each. -/
theorem solid_indented {rows : List (List Char)} (h : ∀ row ∈ rows, Solid row) {blanks : List Char}
    (hblanks : allBlank blanks = true) : solid (rows.map (blanks ++ ·)) = rows := by
  have htrim : (rows.map (blanks ++ ·)).map trim = rows := by
    rw [List.map_map]
    refine (List.map_congr_left fun row hrow => ?_).trans (List.map_id rows)
    exact (trim_blank_append hblanks row).trans (h row hrow).trimmed
  rw [solid, htrim, List.filter_eq_self]
  intro row hrow
  rw [List.isEmpty_eq_false_iff.mpr (h row hrow).ne_nil]
  rfl

/-! ## Line ends -/

theorem trim_dropReturn (line : List Char) : trim (dropReturn line) = trim line := by
  rw [dropReturn]
  split
  · rename_i hlast
    obtain ⟨init, rfl⟩ := List.getLast?_eq_some_iff.mp hlast
    rw [List.dropLast_concat, trim_concat_blank init (by decide)]
  · rfl

theorem solid_map_dropReturn (rows : List (List Char)) : solid (rows.map dropReturn) = solid rows := by
  rw [solid, solid, List.map_map]
  exact congrArg _ (List.map_congr_left fun row _ => trim_dropReturn row)

/-- The lines of a text leave what the pieces between its line feeds leave. -/
theorem solid_lines (cs : List Char) : solid (lines cs) = solid (splitAt '\n' cs) := by
  obtain ⟨init, last, hparts⟩ : ∃ init last, splitAt '\n' cs = init ++ [last] := by
    rcases List.eq_nil_or_concat (splitAt '\n' cs) with h | ⟨init, last, h⟩
    · exact absurd h (splitAt_ne_nil '\n' cs)
    · exact ⟨init, last, h.trans (List.concat_eq_append ..)⟩
  rw [lines, hparts]
  simp only [List.getLast?_concat, List.dropLast_concat]
  rw [solid_append]
  split
  · rename_i h
    cases h
    rw [solid_map_dropReturn]
    exact (List.append_nil _).symm
  · rename_i h
    cases h
  · rename_i h
    cases h
    rw [solid_append, solid_map_dropReturn]

theorem Solid.dropReturn_eq {row : List Char} (h : Solid row) : dropReturn row = row := by
  rw [dropReturn]
  split
  · rename_i hlast
    have hblank := (trim_eq_self_iff.mp h.trimmed).last _ hlast
    exact absurd hblank (by decide)
  · rfl

/-- Solid rows that are joined by line feeds are read back as lines. -/
theorem lines_intercalate {rows : List (List Char)} (h : ∀ row ∈ rows, Solid row) :
    lines (['\n'].intercalate rows) = rows := by
  rcases List.eq_nil_or_concat rows with rfl | ⟨init, last, rfl⟩
  · rfl
  · rw [List.concat_eq_append] at h ⊢
    have hinit : init.map dropReturn = init :=
      (List.map_congr_left fun row hrow => (h row (List.mem_append_left _ hrow)).dropReturn_eq).trans
        (List.map_id init)
    have hlast := (h last (List.mem_append_right _ List.mem_cons_self)).ne_nil
    rw [lines, splitAt_intercalate (by simp) fun row hrow => (h row hrow).unbroken]
    simp only [List.getLast?_concat, List.dropLast_concat, hinit]

end Stencil.Text
